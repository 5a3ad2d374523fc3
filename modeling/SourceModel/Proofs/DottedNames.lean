import SourceModel.Proofs.SimpleNames

/-!
# What a dotted name stands for

A dotted name is read from the left. Its first segment is a simple name, and every further segment
leads from a target to the type of that name directly inside it (`descend?`); a name that leads
nowhere is reported as a whole (`resolve_eq_follow`). In a loaded project every target on the way is
something that the project declares, or outside of it (`Target.StandsIn`).
-/

namespace SourceModel

/-! ## From the first segment on -/

namespace Project

variable {p : Project} {scope : Scope} {name s : String} {rest : List String} {t : Target}

/-- The target at the end of a path of simple names, each directly inside the one before. -/
def descend? (p : Project) (t : Target) : List String → Option Target
  | [] => some t
  | s :: rest => (p.member? s t).bind (p.descend? · rest)

theorem descend?_append (t : Target) (front rest : List String) :
    p.descend? t (front ++ rest) = (p.descend? t front).bind (p.descend? · rest) := by
  induction front generalizing t with
  | nil => rfl
  | cons s front ih =>
    show (p.member? s t).bind (p.descend? · (front ++ rest)) =
      ((p.member? s t).bind (p.descend? · front)).bind (p.descend? · rest)
    rw [Option.bind_assoc]
    congr 1
    funext inner
    exact ih inner

/-- The answer for a name, from the answer for its first segment and the segments after it. -/
def follow (p : Project) (scope : Scope) (name : String) (rest : List String) :
    Except LookupError Target → Except LookupError Target
  | .ok t => (p.descend? t rest).elim (.error (.unresolved scope name)) .ok
  | .error (.unresolved _ _) => .error (.unresolved scope name)
  | .error e => .error e

theorem follow_ok : p.follow scope name rest (.ok t) =
    (p.descend? t rest).elim (.error (.unresolved scope name)) .ok := rfl

theorem follow_eq_ok_iff {r : Except LookupError Target} :
    p.follow scope name rest r = .ok t ↔
      ∃ first, r = .ok first ∧ p.descend? first rest = some t := by
  match r with
  | .ok first =>
    rw [follow_ok]
    cases h : p.descend? first rest <;> simp [h]
  | .error (.unresolved _ _) => simp [follow]
  | .error (.ambiguous _ _ _) => simp [follow]
  | .error (.notAnnotationType _ _ _) => simp [follow]

/-- A simple name is unresolved only under its own name and in its own scope. -/
theorem follow_resolveSimple : p.follow scope s [] (p.resolveSimple scope s) =
    p.resolveSimple scope s := by
  cases hu : p.unit? scope.unit with
  | none =>
    unfold resolveSimple
    rw [hu]
    rfl
  | some u =>
    rw [Lookup.resolveSimple_eq_elim hu]
    cases Lookup.typeParam? u scope s <|> Lookup.enclosing? u scope s <|> Lookup.imported? p u s <|>
        Lookup.samePackage? p u s <|> Lookup.core? s with
    | some t => rfl
    | none =>
      show p.follow scope s [] (Lookup.outside u scope s) = Lookup.outside u scope s
      unfold Lookup.outside
      split <;> rfl

theorem resolveReversed_cons {front : List String} (h : front ≠ []) :
    p.resolveReversed scope (s :: front) =
      p.follow scope (Name.join (s :: front).reverse) [s] (p.resolveReversed scope front) := by
  obtain ⟨x, xs, rfl⟩ := List.exists_cons_of_ne_nil h
  rw [resolveReversed.eq_3 _ _ _ _ (by simp)]
  cases p.resolveReversed scope (x :: xs) with
  | ok t =>
    have hstep : p.descend? t [s] = p.member? s t := Option.bind_fun_some _
    rw [follow_ok, hstep]
    dsimp only
    cases p.member? s t <;> rfl
  | error e => cases e <;> rfl

/-- Two parts of a path are followed one after the other. -/
theorem follow_follow {name' : String} {rest' : List String} (r : Except LookupError Target) :
    p.follow scope name rest (p.follow scope name' rest' r) =
      p.follow scope name (rest' ++ rest) r := by
  match r with
  | .ok t =>
    rw [follow_ok, follow_ok, descend?_append]
    cases p.descend? t rest' <;> rfl
  | .error (.unresolved _ _) => rfl
  | .error (.ambiguous _ _ _) => rfl
  | .error (.notAnnotationType _ _ _) => rfl

theorem resolveReversed_eq_follow (rest : List String) :
    p.resolveReversed scope (rest.reverse ++ [s]) =
      p.follow scope (Name.join (s :: rest)) rest (p.resolveSimple scope s) := by
  induction rest using List.reverseRecOn with
  | nil => exact follow_resolveSimple.symm
  | append_singleton rest x ih =>
    have hrev : (rest ++ [x]).reverse ++ [s] = x :: (rest.reverse ++ [s]) := by simp
    rw [hrev, resolveReversed_cons (by simp), ih, follow_follow]
    simp

/-- A name stands for what is found from its first segment by the other segments. -/
theorem resolve_eq_follow (h : Name.segments name = s :: rest) :
    p.resolve scope name = p.follow scope name rest (p.resolveSimple scope s) := by
  have hjoin : Name.join (s :: rest) = name := by rw [← h, Name.join_segments]
  unfold resolve
  rw [h, List.reverse_cons, resolveReversed_eq_follow, hjoin]

end Project

/-! ## Targets in the project -/

/-- The target is outside the project or something that the project declares. -/
def Target.StandsIn (p : Project) : Target → Prop
  | .declared id => ∃ d, p.decl? id = some d
  | .typeParam owner index => ∃ d t, p.decl? owner = some d ∧ d.typeParams[index]? = some t
  | .external _ => True

theorem Decides.exists_rule {α : Type} {rules : List (α → Prop)} {a : α} (h : Decides rules a) :
    ∃ rule ∈ rules, rule a := by
  induction h with
  | first hr => exact ⟨_, .head _, hr⟩
  | later _ _ ih =>
    obtain ⟨rule, hmem, hr⟩ := ih
    exact ⟨rule, .tail _ hmem, hr⟩

/-- The rule by which a simple name has its target. -/
theorem Lookup.rule_of_resolveSimple {p : Project} {u : SourceUnit} {scope : Scope} {name : String}
    {t : Target} (hp : p.Loaded) (hu : p.unit? scope.unit = some u)
    (h : p.resolveSimple scope name = .ok t) :
    ByTypeParam u scope name t ∨ ByEnclosing u scope name t ∨ ByImport p u name t ∨
      BySamePackage p u name t ∨ ByCore name t ∨ ByWildcard u name t ∨ ByPackage u name t := by
  obtain ⟨rule, hmem, hr⟩ := ((resolveSimple_eq_iff_decides hp hu).mp h).exists_rule
  have hyields : ∀ {rule : Target → Prop}, Yields rule (.ok t) → rule t := by
    rintro rule ⟨t, ht, ⟨⟩⟩
    exact ht
  simp only [rules, List.mem_cons, List.not_mem_nil, or_false] at hmem
  obtain rfl | rfl | rfl | rfl | rfl | rfl | rfl | rfl := hmem
  · exact .inl (hyields hr)
  · exact .inr (.inl (hyields hr))
  · exact .inr (.inr (.inl (hyields hr)))
  · exact .inr (.inr (.inr (.inl (hyields hr))))
  · exact .inr (.inr (.inr (.inr (.inl (hyields hr)))))
  · exact .inr (.inr (.inr (.inr (.inr (.inl (hyields hr))))))
  · exact .inr (.inr (.inr (.inr (.inr (.inr (hyields hr))))))
  · obtain ⟨e, -, heq⟩ := hr
    cases heq

namespace Project

variable {p : Project} {u : SourceUnit} {scope : Scope} {name s : String} {rest : List String}
  {t inner : Target} {i : Nat}

theorem exists_unit_of_resolveSimple (h : p.resolveSimple scope name = .ok t) :
    ∃ u, p.unit? scope.unit = some u := by
  cases hu : p.unit? scope.unit with
  | none =>
    unfold resolveSimple at h
    rw [hu] at h
    cases h
  | some u => exact ⟨u, rfl⟩

theorem decl?_eq_some {id : Nat} {d : Declaration} (hu : p.unit? i = some u)
    (hd : u.decl? id = some d) : p.decl? ⟨i, id⟩ = some d := by
  show (p.unit? i).bind (·.decl? id) = some d
  rw [hu]
  exact hd

theorem standsIn_of_isNamedIn {c : Container} {id : Nat} (hu : p.unit? i = some u)
    (h : u.IsNamedIn c name id) : (Target.declared ⟨i, id⟩).StandsIn p := by
  obtain ⟨d, hd, -, -⟩ := h
  exact ⟨d, decl?_eq_some hu hd⟩

namespace Loaded

theorem standsIn_of_resolveSimple (hp : p.Loaded) (h : p.resolveSimple scope name = .ok t) :
    t.StandsIn p := by
  obtain ⟨u, hu⟩ := exists_unit_of_resolveSimple h
  rcases Lookup.rule_of_resolveSimple hp hu h with hr | hr | hr | hr | hr | hr | hr
  · obtain ⟨n, owner, d, hd, ⟨index, ⟨⟨tp, htp, -⟩, -⟩, rfl⟩, -⟩ := hr
    exact ⟨d, tp, decl?_eq_some hu hd.decl?, htp⟩
  · obtain ⟨n, level, d, hd, ⟨-, rfl⟩ | ⟨-, inner, hinner, rfl⟩, -⟩ := hr
    · exact ⟨d, decl?_eq_some hu hd.decl?⟩
    · exact standsIn_of_isNamedIn hu hinner
  · obtain ⟨before, i, after, -, -, -, ⟨id, hid, rfl⟩ | ⟨-, rfl⟩⟩ := hr
    · exact Option.isSome_iff_exists.mp (hp.named_iff.mp hid).1
    · trivial
  · obtain ⟨id, ⟨v, hv, -, hid⟩, rfl⟩ := hr
    exact standsIn_of_isNamedIn hv hid
  · obtain ⟨-, rfl⟩ := hr
    trivial
  · obtain ⟨i, -, rfl⟩ := hr
    trivial
  · obtain ⟨-, rfl⟩ := hr
    trivial

theorem standsIn_of_member? (hp : p.Loaded) (h : p.member? s t = some inner) :
    inner.StandsIn p := by
  cases t with
  | declared id =>
    obtain ⟨k, hk, rfl⟩ := Option.map_eq_some_iff.mp h
    obtain ⟨u, hu, hnested⟩ := Option.bind_eq_some_iff.mp hk
    exact standsIn_of_isNamedIn hu ((hp.findNested?_eq_some_iff hu).mp hnested)
  | typeParam owner index => cases h
  | external outer =>
    cases h
    trivial

theorem standsIn_of_descend? (hp : p.Loaded) (ht : t.StandsIn p)
    (h : p.descend? t rest = some inner) : inner.StandsIn p := by
  induction rest generalizing t with
  | nil =>
    cases h
    exact ht
  | cons s rest ih =>
    obtain ⟨next, hnext, hrest⟩ := Option.bind_eq_some_iff.mp h
    exact ih (hp.standsIn_of_member? hnext) hrest

theorem standsIn_of_resolve (hp : p.Loaded) (h : p.resolve scope name = .ok t) :
    t.StandsIn p := by
  obtain ⟨s, rest, hname⟩ := Name.exists_segments_eq_cons name
  rw [resolve_eq_follow hname, follow_eq_ok_iff] at h
  obtain ⟨first, hfirst, hdescend⟩ := h
  exact hp.standsIn_of_descend? (hp.standsIn_of_resolveSimple hfirst) hdescend

end Loaded

end Project

end SourceModel
