import SourceModel.Proofs.Renaming

/-!
# The order of the sources

A project loads in every order of its sources or in none, and the order does not show in what names
stand for, except in the numbers of the units. Searches take the first of several units, but the
names of a loaded project differ, so there is only one that they can find.
-/

namespace SourceModel

/-! ## Rearranged lists -/

section Rearranged

variable {α : Type} {l l' : List α} {σ : Equiv.Perm Nat}

/-- The list whose element at position `i` has moved to position `σ i`. -/
def rearrange (l : List α) (σ : Equiv.Perm (Fin l.length)) : List α :=
  List.ofFn fun i => l.get (σ.symm i)

/-- The position to which a position moves; what is past the end stays. -/
def moved {n : Nat} (σ : Equiv.Perm (Fin n)) : Equiv.Perm Nat :=
  σ.extendDomain Fin.equivSubtype

/-- The elements of `l` stand in `l'`, each where `σ` moves it. -/
def Moves (σ : Equiv.Perm Nat) (l l' : List α) : Prop :=
  ∀ i, l'[σ i]? = l[i]?

theorem moved_of_lt {n i : Nat} (σ : Equiv.Perm (Fin n)) (h : i < n) :
    moved σ i = σ ⟨i, h⟩ :=
  Equiv.Perm.extendDomain_apply_subtype σ Fin.equivSubtype h

theorem moved_of_not_lt {n i : Nat} (σ : Equiv.Perm (Fin n)) (h : ¬ i < n) : moved σ i = i :=
  Equiv.Perm.extendDomain_apply_not_subtype σ Fin.equivSubtype h

theorem moves_rearrange (l : List α) (σ : Equiv.Perm (Fin l.length)) :
    Moves (moved σ) l (rearrange l σ) := by
  intro i
  unfold rearrange
  by_cases h : i < l.length
  · rw [moved_of_lt σ h, List.getElem?_ofFn, dif_pos (σ ⟨i, h⟩).isLt, Fin.eta,
      Equiv.symm_apply_apply, List.getElem?_eq_getElem h]
    rfl
  · rw [moved_of_not_lt σ h, List.getElem?_ofFn, dif_neg h, List.getElem?_eq_none (by omega)]

theorem Moves.symm (h : Moves σ l l') : Moves σ.symm l' l := by
  intro i
  rw [← h, Equiv.apply_symm_apply]

theorem Moves.mem (h : Moves σ l l') {a : α} (ha : a ∈ l') : a ∈ l := by
  obtain ⟨i, hi⟩ := List.mem_iff_getElem?.mp ha
  exact List.mem_iff_getElem?.mpr ⟨σ.symm i, (h.symm i).trans hi⟩

end Rearranged

theorem DeclId.rename_symm_rename (σ : Equiv.Perm Nat) (id : DeclId) :
    (id.rename σ.symm).rename σ = id := by
  unfold rename
  rw [Equiv.apply_symm_apply]

/-- What holds of the declarations under their old and their new numbers alike. -/
theorem DeclId.iff_exists_rename {P P' : DeclId → Prop} {σ : Equiv.Perm Nat}
    (h : ∀ id, P' (id.rename σ) ↔ P id) (id' : DeclId) :
    P' id' ↔ ∃ id, P id ∧ id.rename σ = id' := by
  constructor
  · intro hid'
    refine ⟨id'.rename σ.symm, ?_, id'.rename_symm_rename σ⟩
    rw [← h, id'.rename_symm_rename]
    exact hid'
  · rintro ⟨id, hid, rfl⟩
    exact (h id).mpr hid

namespace Project

variable {strict : Bool} {sources sources' : List (List Event)} {units units' : List SourceUnit}
  {p p' : Project} {s q : String} {σ : Equiv.Perm Nat} {id : DeclId}

/-! ## Loading -/

theorem Built.moves (h : Built strict sources units) (h' : Built strict sources' units')
    (hm : Moves σ sources sources') : Moves σ units units' := by
  intro i
  rw [h'.getElem?_eq, h.getElem?_eq, hm i]

theorem named_rename_iff (hm : Moves σ units units') :
    Named units' (id.rename σ) q ↔ Named units id q := by
  show (∃ u, units'[σ id.unit]? = some u ∧ _) ↔ _
  rw [hm]
  rfl

theorem inPackage_rename_iff (hm : Moves σ p.units p'.units) {package : Option String} :
    Lookup.InPackage p' s package (id.rename σ) ↔ Lookup.InPackage p s package id := by
  show (∃ v, p'.units[σ id.unit]? = some v ∧ _) ↔ _
  rw [hm]
  rfl

theorem DistinctNames.moves (h : DistinctNames units) (hm : Moves σ units units') :
    DistinctNames units' := by
  intro id id' q hid hid'
  have heq := h _ _ q ((named_rename_iff hm.symm).mpr hid) ((named_rename_iff hm.symm).mpr hid')
  rw [← id.rename_symm_rename σ, heq, id'.rename_symm_rename]

theorem exists_load_of_moves (hm : Moves σ sources sources') (h : ∃ p, load strict sources = .ok p) :
    ∃ p', load strict sources' = .ok p' := by
  simp only [load_eq_ok_iff] at h ⊢
  obtain ⟨p, units, hb, hd, -⟩ := h
  have hall := exists_built_iff.mp ⟨units, hb⟩
  obtain ⟨units', hb'⟩ := exists_built_iff.mpr fun events he => hall events (hm.mem he)
  exact ⟨_, units', hb', hd.moves (hb.moves hb' hm), rfl⟩

/-! ## Answers -/

theorem resolve_of_unit?_eq_none {scope : Scope} (hu : p.unit? scope.unit = none) (name : String) :
    p.resolve scope name = .error (.unresolved scope name) := by
  obtain ⟨s, rest, hname⟩ := Name.exists_segments_eq_cons name
  have hfirst : p.resolveSimple scope s = .error (.unresolved scope s) := by
    unfold resolveSimple
    rw [hu]
  rw [resolve_eq_follow hname, hfirst]
  rfl

theorem resolve_moves (hp : p.Loaded) (hp' : p'.Loaded) (hm : Moves σ p.units p'.units)
    (scope : Scope) (name : String) :
    p'.resolve (scope.rename σ) name = renameAnswer σ (p.resolve scope name) := by
  cases hu : p.unit? scope.unit with
  | none =>
    have hu' : p'.unit? (scope.rename σ).unit = none := (hm scope.unit).trans hu
    rw [resolve_of_unit?_eq_none hu, resolve_of_unit?_eq_none hu']
    rfl
  | some u =>
    obtain ⟨s, rest, hname⟩ := Name.exists_segments_eq_cons name
    have hunits : UnitsIn σ p p' := fun i v hv => (hm i).trans hv
    refine resolve_rename hp hunits hu hname (Lookup.imported?_rename fun i _ => ?_) ?_
    · exact hp.findType?_rename hp' (DeclId.iff_exists_rename fun id => named_rename_iff hm)
    · exact Lookup.samePackage?_rename hp hp'
        (DeclId.iff_exists_rename fun id => inPackage_rename_iff hm)

/-- Sources load in every order or in none, and in another order every name has the same answer,
with the units under the numbers that they have there. -/
theorem resolve_does_not_depend_on_order (strict : Bool) (sources : List (List Event))
    (σ : Equiv.Perm (Fin sources.length)) :
    ((∃ p, load strict sources = .ok p) ↔ ∃ p', load strict (rearrange sources σ) = .ok p') ∧
    ∀ p p', load strict sources = .ok p → load strict (rearrange sources σ) = .ok p' →
      ∀ scope name, p'.resolve (scope.rename (moved σ)) name =
        renameAnswer (moved σ) (p.resolve scope name) := by
  have hm := moves_rearrange sources σ
  refine ⟨⟨exists_load_of_moves hm, exists_load_of_moves hm.symm⟩, fun p p' hp hp' scope name => ?_⟩
  have hunits : Moves (moved σ) p.units p'.units := by
    obtain ⟨units, hb, -, rfl⟩ := load_eq_ok_iff.mp hp
    obtain ⟨units', hb', -, rfl⟩ := load_eq_ok_iff.mp hp'
    exact hb.moves hb' hm
  exact resolve_moves (loaded_of_load hp) (loaded_of_load hp') hunits scope name

/-- Two units of one package in the other order: each finds the other under its new number. -/
theorem resolve_in_swapped_sources :
    ∃ p p', load true [[.package "a", .enterType .classType "A", .exitType],
        [.package "a", .enterType .classType "B", .exitType]] = .ok p ∧
      load true [[.package "a", .enterType .classType "B", .exitType],
        [.package "a", .enterType .classType "A", .exitType]] = .ok p' ∧
      p.resolve ⟨0, .unit⟩ "B" = .ok (.declared ⟨1, 0⟩) ∧
      p'.resolve ⟨1, .unit⟩ "B" = .ok (.declared ⟨0, 0⟩) := by
  obtain ⟨p, p', hp, hp', hb⟩ : ∃ p p',
      load true [[.package "a", .enterType .classType "A", .exitType],
        [.package "a", .enterType .classType "B", .exitType]] = .ok p ∧
      load true [[.package "a", .enterType .classType "B", .exitType],
        [.package "a", .enterType .classType "A", .exitType]] = .ok p' ∧
      p.resolve ⟨0, .unit⟩ "B" = .ok (.declared ⟨1, 0⟩) :=
    ⟨_, _, load_of_built (.cons (by rfl) (.cons (by rfl) .nil)) (by decide +kernel),
      load_of_built (.cons (by rfl) (.cons (by rfl) .nil)) (by decide +kernel), by decide +kernel⟩
  have hmoved : moved (Equiv.swap (0 : Fin 2) 1) 0 = 1 := moved_of_lt _ (by decide)
  have hmoved' : moved (Equiv.swap (0 : Fin 2) 1) 1 = 0 := moved_of_lt _ (by decide)
  have h := (resolve_does_not_depend_on_order true
    [[.package "a", .enterType .classType "A", .exitType],
      [.package "a", .enterType .classType "B", .exitType]]
    (Equiv.swap (0 : Fin 2) 1)).2 p p' hp hp' ⟨0, .unit⟩ "B"
  rw [hb] at h
  refine ⟨p, p', hp, hp', hb, ?_⟩
  simpa [Scope.rename, renameAnswer, Target.rename, DeclId.rename, hmoved, hmoved'] using h

end Project

end SourceModel
