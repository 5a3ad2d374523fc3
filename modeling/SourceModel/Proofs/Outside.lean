import SourceModel.Proofs.DottedNames

/-!
# Names of types outside the project

A name stands for a type outside the project if its first segment does, and the segments after it
extend the qualified name (`resolve_eq_external_iff`). Of a first segment only what an import names
is compared with the declarations of the project; a name in the core namespace, in that of a
wildcard or in the package is not, and neither is an extended one. `Lookup.Misses` says when the
qualified name is one that the project declares all the same.
-/

namespace SourceModel

/-- The qualified name with further segments. -/
def Name.extend (base : String) (rest : List String) : String :=
  rest.foldl (fun q s => Name.qualify (some q) s) base

namespace Lookup

variable (p : Project) (u : SourceUnit) (scope : Scope) (s : String)

/-- The name is no type parameter around the scope, and neither the name of a type around it nor
that of a type directly in one of these. -/
structure NotAround : Prop where
  typeParam : ∀ t, ¬ ByTypeParam u scope s t
  enclosing : ∀ t, ¬ ByEnclosing u scope s t

/-- The namespace in which a name that is not known is taken to be. -/
inductive Namespace : Option String → Prop where
  | core : s ∈ coreTypes → Namespace (some coreNamespace)
  | wildcard {ns : String} : s ∉ coreTypes → namespaces u = [ns] → Namespace (some ns)
  | package : s ∉ coreTypes → namespaces u = [] → Namespace u.package

/-- The qualified name that a simple name is taken to have outside the project: what is imported
under the name, if the project does not declare it, or a name that is not known, in its
namespace. -/
inductive TakenOutside : String → Prop where
  | imported {i : Import} : NotAround u scope s → u.findImport? s = some i →
      p.findType? i.name = none → TakenOutside i.name
  | unknown {ns : Option String} : NotAround u scope s → u.findImport? s = none →
      (∀ id, ¬ InPackage p s u.package id) → Namespace u s ns → TakenOutside (Name.qualify ns s)

/-- The project declares the type that a name, of a first segment and further ones, is taken to mean
outside of it. An import alone is never mistaken so. -/
inductive Misses (rest : List String) : Prop where
  | imported {i : Import} : NotAround u scope s → u.findImport? s = some i →
      p.findType? i.name = none → rest ≠ [] → (p.findType? (Name.extend i.name rest)).isSome →
      Misses rest
  | unknown {ns : Option String} : NotAround u scope s → u.findImport? s = none →
      (∀ id, ¬ InPackage p s u.package id) → Namespace u s ns →
      (p.findType? (Name.extend (Name.qualify ns s) rest)).isSome → Misses rest

variable {p u scope s} {rest : List String} {base q : String}

theorem misses_iff : Misses p u scope s rest ↔
    ∃ base, TakenOutside p u scope s base ∧ (p.findType? (Name.extend base rest)).isSome := by
  constructor
  · intro h
    cases h with
    | imported ha hi hnone _ hsome => exact ⟨_, .imported ha hi hnone, hsome⟩
    | unknown ha hi hpackage hns hsome => exact ⟨_, .unknown ha hi hpackage hns, hsome⟩
  · rintro ⟨base, hbase, hsome⟩
    cases hbase with
    | @imported i ha hi hnone =>
      refine .imported ha hi hnone ?_ hsome
      rintro rfl
      have hsome : (p.findType? i.name).isSome := hsome
      rw [hnone] at hsome
      cases hsome
    | unknown ha hi hpackage hns => exact .unknown ha hi hpackage hns hsome

/-! ## Simple names -/

theorem notAround_iff (hp : p.Loaded) (hu : p.unit? scope.unit = some u) :
    NotAround u scope s ↔ typeParam? u scope s = none ∧ enclosing? u scope s = none := by
  simp only [Option.eq_none_iff_forall_ne_some, ne_eq, typeParam?_eq_some_iff (hp.wellFormed hu),
    enclosing?_eq_some_iff hp hu]
  exact ⟨fun h => ⟨h.typeParam, h.enclosing⟩, fun h => ⟨h.1, h.2⟩⟩

/-- Nothing is around the top level of a unit. -/
theorem notAround_unit (u : SourceUnit) (i : Nat) (s : String) : NotAround u ⟨i, .unit⟩ s where
  typeParam t := by
    rintro ⟨n, id, d, hd, -⟩
    cases hd
  enclosing t := by
    rintro ⟨n, id, d, hd, -⟩
    cases hd

theorem samePackage?_eq_none_iff (hp : p.Loaded) :
    samePackage? p u s = none ↔ ∀ id, ¬ InPackage p s u.package id := by
  simp only [Option.eq_none_iff_forall_ne_some, ne_eq, samePackage?_eq_some_iff hp]
  constructor
  · intro h id hid
    exact h _ ⟨id, hid, rfl⟩
  · rintro h t ⟨id, hid, -⟩
    exact h id hid

/-- What comes of a name that nothing before the core types applies to. -/
theorem elim_core?_eq_external_iff :
    (core? s).elim (outside u scope s) .ok = .ok (.external base) ↔
      ∃ ns, Namespace u s ns ∧ base = Name.qualify ns s := by
  by_cases hc : s ∈ coreTypes
  · have hcore : core? s = some (.external (Name.qualify (some coreNamespace) s)) :=
      core?_eq_some_iff.mpr ⟨hc, rfl⟩
    rw [hcore]
    constructor
    · rintro ⟨⟩
      exact ⟨_, .core hc, rfl⟩
    · rintro ⟨ns, hns, rfl⟩
      cases hns with
      | core _ => rfl
      | wildcard hnc _ => exact absurd hc hnc
      | package hnc _ => exact absurd hc hnc
  · have hcore : core? s = none := by
      rw [Option.eq_none_iff_forall_ne_some]
      intro t ht
      exact hc (core?_eq_some_iff.mp ht).1
    rw [hcore]
    show outside u scope s = _ ↔ _
    simp only [outside_eq, qualify_eq_inNamespace]
    constructor
    · intro h
      split at h
      · next hw =>
        cases h
        exact ⟨_, .package hc hw, rfl⟩
      · next ns hw =>
        cases h
        exact ⟨_, .wildcard hc hw, rfl⟩
      · cases h
    · rintro ⟨ns, hns, rfl⟩
      cases hns with
      | core hm => exact absurd hm hc
      | wildcard _ hw =>
        rw [hw]
        rfl
      | package _ hw => rw [hw]

/-- A search that finds nothing outside the project leaves that to the searches after it. -/
theorem elim_eq_external_iff {found : Option Target} {other : Except LookupError Target}
    (h : ∀ q, found ≠ some (.external q)) :
    found.elim other .ok = .ok (.external base) ↔
      found = none ∧ other = .ok (.external base) := by
  cases found with
  | none => simp
  | some t =>
    simp only [Option.elim_some, Except.ok.injEq, reduceCtorEq, false_and, iff_false]
    rintro rfl
    exact h base rfl

theorem elim_imported?_eq_external_iff {other : Except LookupError Target} :
    (imported? p u s).elim other .ok = .ok (.external base) ↔
      (∃ i, u.findImport? s = some i ∧ p.findType? i.name = none ∧ base = i.name) ∨
        u.findImport? s = none ∧ other = .ok (.external base) := by
  unfold imported?
  cases u.findImport? s with
  | none => simp
  | some i => cases hf : p.findType? i.name <;> simp [hf, eq_comm]

theorem resolveSimple_eq_external_iff (hp : p.Loaded) (hu : p.unit? scope.unit = some u) :
    p.resolveSimple scope s = .ok (.external base) ↔ TakenOutside p u scope s base := by
  have htypeParam : ∀ q, typeParam? u scope s ≠ some (.external q) := by
    intro q h
    obtain ⟨n, owner, d, -, ⟨index, -, heq⟩, -⟩ :=
      (typeParam?_eq_some_iff (hp.wellFormed hu)).mp h
    cases heq
  have henclosing : ∀ q, enclosing? u scope s ≠ some (.external q) := by
    intro q h
    obtain ⟨id, -, heq⟩ := Option.map_eq_some_iff.mp h
    cases heq
  have hsame : ∀ q, samePackage? p u s ≠ some (.external q) := by
    intro q h
    obtain ⟨id, -, heq⟩ := (samePackage?_eq_some_iff hp).mp h
    cases heq
  rw [resolveSimple_eq_elim hu, elim_orElse, elim_orElse, elim_orElse, elim_orElse,
    elim_eq_external_iff htypeParam, elim_eq_external_iff henclosing,
    elim_imported?_eq_external_iff, elim_eq_external_iff hsame, samePackage?_eq_none_iff hp,
    elim_core?_eq_external_iff, ← and_assoc, ← notAround_iff hp hu]
  constructor
  · rintro ⟨ha, ⟨i, hi, hnone, rfl⟩ | ⟨hi, hpackage, ns, hns, rfl⟩⟩
    · exact .imported ha hi hnone
    · exact .unknown ha hi hpackage hns
  · intro h
    cases h with
    | imported ha hi hnone => exact ⟨ha, .inl ⟨_, hi, hnone, rfl⟩⟩
    | unknown ha hi hpackage hns => exact ⟨ha, .inr ⟨hi, hpackage, _, hns, rfl⟩⟩

end Lookup

/-! ## Dotted names -/

namespace Project

variable {p : Project} {u : SourceUnit} {scope : Scope} {name s q : String} {rest : List String}

/-- Nothing outside the project is inside of it, and the other way round. -/
theorem descend?_eq_external_iff {t : Target} :
    p.descend? t rest = some (.external q) ↔
      ∃ base, t = .external base ∧ q = Name.extend base rest := by
  induction rest generalizing t with
  | nil =>
    show some t = _ ↔ _
    rw [Option.some.injEq]
    constructor
    · rintro rfl
      exact ⟨q, rfl, rfl⟩
    · rintro ⟨base, rfl, rfl⟩
      rfl
  | cons x rest ih =>
    show (p.member? x t).bind (p.descend? · rest) = _ ↔ _
    simp only [Option.bind_eq_some_iff, ih]
    cases t with
    | declared id =>
      constructor
      · rintro ⟨inner, hinner, base, rfl, -⟩
        obtain ⟨k, -, heq⟩ := Option.map_eq_some_iff.mp hinner
        cases heq
      · rintro ⟨base, heq, -⟩
        cases heq
    | typeParam owner index =>
      constructor
      · rintro ⟨inner, hinner, -⟩
        cases hinner
      · rintro ⟨base, heq, -⟩
        cases heq
    | external outer =>
      constructor
      · rintro ⟨inner, hinner, base, rfl, rfl⟩
        cases hinner
        exact ⟨outer, rfl, rfl⟩
      · rintro ⟨base, heq, rfl⟩
        cases heq
        exact ⟨_, rfl, _, rfl, rfl⟩

theorem Loaded.resolve_eq_external_iff (hp : p.Loaded) (hu : p.unit? scope.unit = some u)
    (hname : Name.segments name = s :: rest) :
    p.resolve scope name = .ok (.external q) ↔
      ∃ base, Lookup.TakenOutside p u scope s base ∧ q = Name.extend base rest := by
  rw [resolve_eq_follow hname, follow_eq_ok_iff]
  constructor
  · rintro ⟨first, hfirst, hd⟩
    obtain ⟨base, rfl, hq⟩ := descend?_eq_external_iff.mp hd
    exact ⟨base, (Lookup.resolveSimple_eq_external_iff hp hu).mp hfirst, hq⟩
  · rintro ⟨base, hbase, hq⟩
    exact ⟨_, (Lookup.resolveSimple_eq_external_iff hp hu).mpr hbase,
      descend?_eq_external_iff.mpr ⟨base, rfl, hq⟩⟩

/-- What a name stands for outside the project is not declared in the project, unless the name is
one that misses a declaration. -/
theorem resolve_external_undeclared_iff {strict : Bool} {sources : List (List Event)}
    (hp : load strict sources = .ok p) (hu : p.unit? scope.unit = some u)
    (hname : Name.segments name = s :: rest) :
    (∀ q, p.resolve scope name = .ok (.external q) → p.findType? q = none) ↔
      ¬ Lookup.Misses p u scope s rest := by
  have hl := loaded_of_load hp
  rw [Lookup.misses_iff]
  constructor
  · rintro h ⟨base, hbase, hsome⟩
    have hnone := h _ ((hl.resolve_eq_external_iff hu hname).mpr ⟨base, hbase, rfl⟩)
    rw [hnone] at hsome
    cases hsome
  · intro h q hq
    obtain ⟨base, hbase, rfl⟩ := (hl.resolve_eq_external_iff hu hname).mp hq
    rw [← Option.not_isSome_iff_eq_none]
    exact fun hsome => h ⟨base, hbase, hsome⟩

/-- A wildcard import of a package of the project misses the types of that package. -/
theorem resolve_external_declared :
    ∃ p, load true [[.package "b", .enterType .classType "Foo", .exitType],
        [.package "a", .importName "b" .wildcard, .enterType .classType "C", .exitType]] = .ok p ∧
      p.resolve ⟨1, .unit⟩ "Foo" = .ok (.external "b.Foo") ∧
      p.findType? "b.Foo" = some ⟨0, 0⟩ :=
  ⟨_, load_of_built (.cons (by rfl) (.cons (by rfl) .nil)) (by decide +kernel), by decide +kernel,
    by decide +kernel⟩

/-- The name of a core type misses a declaration of that type in the project. -/
theorem resolve_external_declared_core :
    ∃ p u, load true [[.package "java.lang", .enterType .classType "String", .exitType],
        [.package "a", .enterType .classType "C", .exitType]] = .ok p ∧
      p.unit? 1 = some u ∧ Name.segments "String" = ["String"] ∧
      ¬ ∀ q, p.resolve ⟨1, .unit⟩ "String" = .ok (.external q) → p.findType? q = none := by
  obtain ⟨p, u, hp, hu, hf, hi, hs⟩ : ∃ p u,
      load true [[.package "java.lang", .enterType .classType "String", .exitType],
        [.package "a", .enterType .classType "C", .exitType]] = .ok p ∧
      p.unit? 1 = some u ∧ p.findType? "java.lang.String" = some ⟨0, 0⟩ ∧
      u.findImport? "String" = none ∧ Lookup.samePackage? p u "String" = none :=
    ⟨_, _, load_of_built (.cons (by rfl) (.cons (by rfl) .nil)) (by decide +kernel), by rfl,
      by decide +kernel, by decide +kernel, by decide +kernel⟩
  have hname : Name.segments "String" = ["String"] := by decide +kernel
  refine ⟨p, u, hp, hu, hname, fun h => ?_⟩
  refine (resolve_external_undeclared_iff hp hu hname).mp h (.unknown
    (Lookup.notAround_unit u 1 "String") hi
    ((Lookup.samePackage?_eq_none_iff (loaded_of_load hp)).mp hs) (.core (by decide)) ?_)
  show (p.findType? "java.lang.String").isSome
  rw [hf]
  rfl

end Project

end SourceModel
