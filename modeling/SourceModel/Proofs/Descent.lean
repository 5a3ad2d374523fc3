import SourceModel.Proofs.Outside

/-!
# From the first segment to the last

What a dotted name stands for is told by a descent from left to right. Its first segment is looked
up as a simple name. From a declared type the other segments lead down through the types that stand
directly one in the other (`Project.Reaches`), outside the project they extend the qualified name,
and nothing is inside a type parameter. Failures are reported in the scope of the look-up: an
ambiguity under the first segment, everything else under the whole name.
-/

namespace SourceModel

namespace Project

variable {p : Project} {u : SourceUnit} {scope : Scope} {name s : String} {rest : List String}

/-- A simple name fails only if it could be in several namespaces. -/
theorem ambiguous_of_resolveSimple {e : LookupError}
    (hu : p.unit? scope.unit = some u) (h : p.resolveSimple scope s = .error e) :
    Lookup.Ambiguous u scope s e := by
  rw [Lookup.resolveSimple_eq_elim hu] at h
  cases hfound : Lookup.typeParam? u scope s <|> Lookup.enclosing? u scope s <|>
      Lookup.imported? p u s <|> Lookup.samePackage? p u s <|> Lookup.core? s with
  | some t =>
    rw [hfound] at h
    cases h
  | none =>
    rw [hfound] at h
    obtain ⟨rule, hmem, hrule⟩ := (Lookup.outside_eq_iff_decides.mp h).exists_rule
    simp only [List.mem_cons, List.not_mem_nil, or_false] at hmem
    obtain rfl | rfl | rfl := hmem
    · obtain ⟨t, -, heq⟩ := hrule
      cases heq
    · obtain ⟨t, -, heq⟩ := hrule
      cases heq
    · obtain ⟨e', he', heq⟩ := hrule
      cases heq
      exact he'

/-! ## The descent -/

/-- The declaration `inner` has the name and stands directly in `outer`. -/
def Nests (p : Project) (outer : DeclId) (name : String) (inner : DeclId) : Prop :=
  inner.unit = outer.unit ∧
    ∃ u, p.unit? outer.unit = some u ∧ u.IsNamedIn (.type outer.decl) name inner.decl

/-- The names lead from a declaration to the last one, each directly in the one before. -/
inductive Reaches (p : Project) : DeclId → List String → DeclId → Prop where
  | nil (id : DeclId) : Reaches p id [] id
  | cons {outer inner last : DeclId} {name : String} {rest : List String} :
      p.Nests outer name inner → Reaches p inner rest last → Reaches p outer (name :: rest) last

/-- The answer for the name of the segments `s` and `rest`, told from the answer for `s`. -/
inductive Descent (p : Project) (scope : Scope) (s : String) (rest : List String) :
    Except LookupError Target → Except LookupError Target → Prop where
  | external (q : String) :
      Descent p scope s rest (.ok (.external q)) (.ok (.external (Name.extend q rest)))
  | declared {id last : DeclId} : p.Reaches id rest last →
      Descent p scope s rest (.ok (.declared id)) (.ok (.declared last))
  | lost {id : DeclId} : (∀ last, ¬ p.Reaches id rest last) →
      Descent p scope s rest (.ok (.declared id))
        (.error (.unresolved scope (Name.join (s :: rest))))
  | typeParam (owner : DeclId) (index : Nat) : rest = [] →
      Descent p scope s rest (.ok (.typeParam owner index)) (.ok (.typeParam owner index))
  | insideTypeParam (owner : DeclId) (index : Nat) : rest ≠ [] →
      Descent p scope s rest (.ok (.typeParam owner index))
        (.error (.unresolved scope (Name.join (s :: rest))))
  | ambiguous (candidates : List String) :
      Descent p scope s rest (.error (.ambiguous scope s candidates))
        (.error (.ambiguous scope s candidates))

theorem Loaded.member?_declared_eq_some_iff (hp : p.Loaded) {id : DeclId} {t : Target} :
    p.member? s (.declared id) = some t ↔ ∃ inner, t = .declared inner ∧ p.Nests id s inner := by
  constructor
  · intro h
    obtain ⟨k, hk, rfl⟩ := Option.map_eq_some_iff.mp h
    obtain ⟨u, hu, hnested⟩ := Option.bind_eq_some_iff.mp hk
    exact ⟨_, rfl, rfl, u, hu, (hp.findNested?_eq_some_iff hu).mp hnested⟩
  · rintro ⟨⟨i, k⟩, rfl, hi, u, hu, hk⟩
    have hnested := (hp.findNested?_eq_some_iff hu).mpr hk
    change i = id.unit at hi
    subst hi
    show ((p.unit? id.unit).bind fun u => u.findNested? id.decl s).map _ = _
    rw [hu, Option.bind_some, hnested]
    rfl

theorem Loaded.descend?_declared_eq_some_iff (hp : p.Loaded) {id : DeclId} {t : Target} :
    p.descend? (.declared id) rest = some t ↔
      ∃ last, t = .declared last ∧ p.Reaches id rest last := by
  induction rest generalizing id with
  | nil =>
    constructor
    · intro h
      cases h
      exact ⟨id, rfl, .nil id⟩
    · rintro ⟨last, rfl, h⟩
      cases h
      rfl
  | cons x rest ih =>
    constructor
    · intro h
      obtain ⟨t', ht', hrest⟩ := Option.bind_eq_some_iff.mp h
      obtain ⟨inner, rfl, hinner⟩ := hp.member?_declared_eq_some_iff.mp ht'
      obtain ⟨last, rfl, hlast⟩ := ih.mp hrest
      exact ⟨last, rfl, .cons hinner hlast⟩
    · rintro ⟨last, rfl, h⟩
      cases h with
      | cons hinner hlast =>
        exact Option.bind_eq_some_iff.mpr ⟨_, hp.member?_declared_eq_some_iff.mpr ⟨_, rfl, hinner⟩,
          ih.mpr ⟨last, rfl, hlast⟩⟩

theorem Loaded.follow_eq_iff_descent (hp : p.Loaded) (hu : p.unit? scope.unit = some u)
    {r : Except LookupError Target} :
    p.follow scope (Name.join (s :: rest)) rest (p.resolveSimple scope s) = r ↔
      Descent p scope s rest (p.resolveSimple scope s) r := by
  cases hs : p.resolveSimple scope s with
  | error e =>
    obtain ⟨-, rfl⟩ := ambiguous_of_resolveSimple hu hs
    constructor
    · rintro rfl
      exact .ambiguous _
    · intro h
      cases h
      rfl
  | ok t =>
    rw [follow_ok]
    cases t with
    | external q =>
      have hd : p.descend? (.external q) rest = some (.external (Name.extend q rest)) :=
        descend?_eq_external_iff.mpr ⟨q, rfl, rfl⟩
      rw [hd]
      constructor
      · rintro rfl
        exact .external q
      · intro h
        cases h
        rfl
    | typeParam owner index =>
      cases rest with
      | nil =>
        constructor
        · rintro rfl
          exact .typeParam owner index rfl
        · intro h
          cases h with
          | typeParam _ _ _ => rfl
          | insideTypeParam _ _ hne => exact absurd rfl hne
      | cons x rest =>
        constructor
        · rintro rfl
          exact .insideTypeParam owner index (List.cons_ne_nil _ _)
        · intro h
          cases h with
          | typeParam _ _ hnil => cases hnil
          | insideTypeParam _ _ _ => rfl
    | declared id =>
      cases hd : p.descend? (.declared id) rest with
      | some t =>
        obtain ⟨last, rfl, hlast⟩ := hp.descend?_declared_eq_some_iff.mp hd
        constructor
        · rintro rfl
          exact .declared hlast
        · intro h
          cases h with
          | @declared _ last' hlast' =>
            have hd' := hp.descend?_declared_eq_some_iff.mpr ⟨last', rfl, hlast'⟩
            rw [hd] at hd'
            exact congrArg Except.ok (Option.some.inj hd')
          | lost hnone => exact absurd hlast (hnone last)
      | none =>
        have hnone : ∀ last, ¬ p.Reaches id rest last := by
          intro last hlast
          rw [hp.descend?_declared_eq_some_iff.mpr ⟨last, rfl, hlast⟩] at hd
          cases hd
        constructor
        · rintro rfl
          exact .lost hnone
        · intro h
          cases h with
          | declared hlast => exact absurd hlast (hnone _)
          | lost _ => rfl

theorem Descent.error {first : Except LookupError Target} {e : LookupError}
    (h : Descent p scope s rest first (.error e)) :
    e = .unresolved scope (Name.join (s :: rest)) ∨
      ∃ candidates, e = .ambiguous scope s candidates := by
  cases h with
  | lost _ => exact .inl rfl
  | insideTypeParam _ _ _ => exact .inl rfl
  | ambiguous candidates => exact .inr ⟨candidates, rfl⟩

/-- A dotted name stands for what the descent from its first segment leads to. A name that leads
nowhere is reported as a whole, and every error tells the scope of the look-up. -/
theorem resolve_descends_from_first_segment {strict : Bool} {sources : List (List Event)}
    (hp : load strict sources = .ok p) (hu : p.unit? scope.unit = some u)
    (hdots : ∀ x ∈ s :: rest, '.' ∉ x.toList) :
    (∀ r, p.resolve scope (Name.join (s :: rest)) = r ↔
      Descent p scope s rest (p.resolve scope s) r) ∧
    ∀ e, p.resolve scope (Name.join (s :: rest)) = .error e →
      e.scope = scope ∧ (e = .unresolved scope (Name.join (s :: rest)) ∨
        ∃ candidates, e = .ambiguous scope s candidates) := by
  have hdescent : ∀ r, p.resolve scope (Name.join (s :: rest)) = r ↔
      Descent p scope s rest (p.resolve scope s) r := by
    intro r
    rw [resolve_eq_follow (Name.segments_join hdots), resolve_eq_resolveSimple (hdots s (.head _))]
    exact (loaded_of_load hp).follow_eq_iff_descent hu
  refine ⟨hdescent, fun e he => ?_⟩
  have hform := ((hdescent _).mp he).error
  refine ⟨?_, hform⟩
  rcases hform with rfl | ⟨candidates, rfl⟩
  · rfl
  · rfl

/-- An import leads into another source, and from there down two levels; where a level is missing,
the whole name is reported. -/
theorem resolve_descends_into_other_source :
    ∃ p u, load true [[.package "a", .enterType .classType "A", .enterType .classType "B",
        .enterType .classType "C", .exitType, .exitType, .exitType],
        [.importName "a.A" .single]] = .ok p ∧ p.unit? 1 = some u ∧
      Descent p ⟨1, .unit⟩ "A" ["B", "C"] (p.resolve ⟨1, .unit⟩ "A") (.ok (.declared ⟨0, 2⟩)) ∧
      Descent p ⟨1, .unit⟩ "A" ["C", ""] (p.resolve ⟨1, .unit⟩ "A")
        (.error (.unresolved ⟨1, .unit⟩ "A.C.")) := by
  obtain ⟨p, u, hp, hu, hfound, hlost⟩ : ∃ p u, load true [[.package "a",
        .enterType .classType "A", .enterType .classType "B", .enterType .classType "C",
        .exitType, .exitType, .exitType], [.importName "a.A" .single]] = .ok p ∧
      p.unit? 1 = some u ∧ p.resolve ⟨1, .unit⟩ "A.B.C" = .ok (.declared ⟨0, 2⟩) ∧
      p.resolve ⟨1, .unit⟩ "A.C." = .error (.unresolved ⟨1, .unit⟩ "A.C.") :=
    ⟨_, _, load_of_built (.cons (by rfl) (.cons (by rfl) .nil)) (by decide +kernel), by rfl,
      by decide +kernel, by decide +kernel⟩
  have hjoin : Name.join ["A", "B", "C"] = "A.B.C" := by decide
  have hjoin' : Name.join ["A", "C", ""] = "A.C." := by decide
  rw [← hjoin] at hfound
  rw [← hjoin'] at hlost ⊢
  exact ⟨p, u, hp, hu,
    ((resolve_descends_from_first_segment hp hu (by decide)).1 _).mp hfound,
    ((resolve_descends_from_first_segment hp hu (by decide)).1 _).mp hlost⟩

end Project

end SourceModel
