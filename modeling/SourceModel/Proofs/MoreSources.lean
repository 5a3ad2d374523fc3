import SourceModel.Proofs.Renaming

/-!
# One source more

A source that is added at the end of a project leaves all names alone that it cannot supply. It
supplies a name through its first segment only: as a top-level type of the same package, or as the
type that an import names. Everything else that a lookup reads is in the unit of the scope, or in
units that it is led to and that were there before.
-/

namespace SourceModel.Project

variable {strict : Bool} {sources : List (List Event)} {source : List Event} {p p' : Project}
  {new u v : SourceUnit} {s q : String} {i : Nat} {a : DeclId}

/-- The project with one unit more, at the end. -/
def Adds (new : SourceUnit) (p p' : Project) : Prop :=
  p'.units = p.units ++ [new]

theorem Built.concat {units units' : List SourceUnit} (h : Built strict sources units)
    (h' : Built strict (sources ++ [source]) units')
    (hnew : SourceUnit.ofEvents strict source = .ok new) : units' = units ++ [new] := by
  have hb : Built strict (sources ++ [source]) (units ++ [new]) :=
    List.rel_append h (.cons hnew .nil)
  refine List.ext_getElem? fun i => ?_
  rw [h'.getElem?_eq, hb.getElem?_eq]

theorem adds_of_load (hp : load strict sources = .ok p)
    (hp' : load strict (sources ++ [source]) = .ok p')
    (hnew : SourceUnit.ofEvents strict source = .ok new) : Adds new p p' := by
  obtain ⟨units, hb, -, rfl⟩ := load_eq_ok_iff.mp hp
  obtain ⟨units', hb', -, rfl⟩ := load_eq_ok_iff.mp hp'
  exact hb.concat hb' hnew

namespace Adds

theorem unit?_eq_some_iff (h : Adds new p p') :
    p'.unit? i = some v ↔ p.unit? i = some v ∨ i = p.units.length ∧ new = v := by
  unfold unit?
  rw [h, List.getElem?_append]
  by_cases hi : i < p.units.length
  · rw [if_pos hi]
    constructor
    · exact .inl
    · rintro (hv | ⟨rfl, -⟩)
      · exact hv
      · exact absurd hi (Nat.lt_irrefl _)
  · rw [if_neg hi, List.getElem?_eq_none (Nat.le_of_not_lt hi), List.getElem?_singleton,
      Option.ite_none_right_eq_some, Option.some.injEq]
    constructor
    · rintro ⟨h0, rfl⟩
      exact .inr ⟨by omega, rfl⟩
    · rintro (hv | ⟨rfl, rfl⟩)
      · cases hv
      · exact ⟨Nat.sub_self _, rfl⟩

theorem unitsIn (h : Adds new p p') : UnitsIn id p p' :=
  fun _ _ hv => h.unit?_eq_some_iff.mpr (.inl hv)

theorem named_iff (h : Adds new p p') (hq : ∀ k, ¬ new.IsFullName k q) :
    Named p'.units a q ↔ Named p.units a q := by
  constructor
  · rintro ⟨v, hv, hname⟩
    rcases h.unit?_eq_some_iff.mp hv with hv | ⟨-, rfl⟩
    · exact ⟨v, hv, hname⟩
    · exact absurd hname (hq a.decl)
  · rintro ⟨v, hv, hname⟩
    exact ⟨v, h.unit?_eq_some_iff.mpr (.inl hv), hname⟩

theorem inPackage_iff (h : Adds new p p') {package : Option String}
    (hs : new.package ≠ package ∨ ∀ k, ¬ new.IsNamedIn .unit s k) :
    Lookup.InPackage p' s package a ↔ Lookup.InPackage p s package a := by
  constructor
  · rintro ⟨v, hv, hpackage, hname⟩
    rcases h.unit?_eq_some_iff.mp hv with hv | ⟨-, rfl⟩
    · exact ⟨v, hv, hpackage, hname⟩
    · rcases hs with hs | hs
      · exact absurd hpackage hs
      · exact absurd hname (hs a.decl)
  · rintro ⟨v, hv, hpackage, hname⟩
    exact ⟨v, h.unit?_eq_some_iff.mpr (.inl hv), hpackage, hname⟩

end Adds

/-- A name has the same answer with one source more, if the new unit has no top-level type of the
first segment in the package of the scope, and does not declare what the first import of that
segment names. -/
theorem resolve_unaffected_by_source (hp : load strict sources = .ok p)
    (hp' : load strict (sources ++ [source]) = .ok p')
    (hnew : SourceUnit.ofEvents strict source = .ok new) {scope : Scope}
    (hu : p.unit? scope.unit = some u) {name : String} {rest : List String}
    (hname : Name.segments name = s :: rest)
    (hpackage : new.package ≠ u.package ∨ ∀ k, ¬ new.IsNamedIn .unit s k)
    (himport : ∀ i, u.findImport? s = some i →
      ∀ k < new.typeCount, new.qualifiedName k ≠ i.name) :
    p'.resolve scope name = p.resolve scope name := by
  have hl := loaded_of_load hp
  have hl' := loaded_of_load hp'
  have hadds := adds_of_load hp hp' hnew
  have hfind : ∀ i, u.findImport? s = some i →
      p'.findType? i.name = (p.findType? i.name).map (DeclId.rename id) := by
    intro i hi
    have hother : ∀ k, ¬ new.IsFullName k i.name := by
      intro k hk
      obtain ⟨hlt, hq⟩ :=
        (SourceUnit.isFullName_iff (SourceUnit.wellFormed_of_ofEvents hnew).1).mp hk
      exact himport i hi k hlt hq
    refine hl.findType?_rename hl' fun a => ?_
    simp only [hadds.named_iff hother, DeclId.rename_id, exists_eq_right]
  have hsame : Lookup.samePackage? p' u s =
      (Lookup.samePackage? p u s).map (Target.rename id) := by
    refine Lookup.samePackage?_rename hl hl' fun a => ?_
    simp only [hadds.inPackage_iff hpackage, DeclId.rename_id, exists_eq_right]
  have heq := resolve_rename hl hadds.unitsIn hu hname (Lookup.imported?_rename hfind) hsame
  rwa [renameAnswer_id] at heq

/-- A unit of another package does not change what an imported name stands for, although it declares
a type of that simple name. -/
theorem resolve_unaffected_by_other_package :
    ∃ p p', load true [[.package "a", .importName "c.B" .single, .enterType .classType "A",
        .exitType]] = .ok p ∧
      load true ([[.package "a", .importName "c.B" .single, .enterType .classType "A", .exitType]] ++
        [[.package "b", .enterType .classType "B", .exitType]]) = .ok p' ∧
      p'.resolve ⟨0, .type 0⟩ "B.C" = p.resolve ⟨0, .type 0⟩ "B.C" := by
  obtain ⟨p, p', u, new, hp, hp', hnew, hu, himport, hpackage, hcount, hq⟩ : ∃ p p' u new,
      load true [[.package "a", .importName "c.B" .single, .enterType .classType "A",
        .exitType]] = .ok p ∧
      load true ([[.package "a", .importName "c.B" .single, .enterType .classType "A", .exitType]] ++
        [[.package "b", .enterType .classType "B", .exitType]]) = .ok p' ∧
      SourceUnit.ofEvents true [.package "b", .enterType .classType "B", .exitType] = .ok new ∧
      p.unit? 0 = some u ∧ u.findImport? "B" = some ⟨"c.B", .single⟩ ∧ new.package ≠ u.package ∧
      new.typeCount = 1 ∧ new.qualifiedName 0 = "b.B" :=
    ⟨_, _, _, _, load_of_built (.cons (by rfl) .nil) (by decide +kernel),
      load_of_built (show Built true [_, _] _ from .cons (by rfl) (.cons (by rfl) .nil))
        (by decide +kernel),
      by rfl, by rfl, by decide +kernel, by decide, by rfl, by decide +kernel⟩
  have hname : Name.segments "B.C" = ["B", "C"] := by decide
  refine ⟨p, p', hp, hp', resolve_unaffected_by_source hp hp' hnew hu hname (.inl hpackage) ?_⟩
  intro i hi k hk
  cases himport.symm.trans hi
  rw [hcount, Nat.lt_one_iff] at hk
  rw [hk, hq]
  decide

end SourceModel.Project
