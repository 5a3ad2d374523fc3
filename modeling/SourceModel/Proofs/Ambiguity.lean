import SourceModel.Proofs.CanonicalNames

/-!
# Ambiguous names

A name is ambiguous if its first segment gets as far as the wildcard imports and there are several
of these. They count as they were written: a unit keeps every import that its source reports, in
order and with repetitions (`SourceUnit.imports_of_ofEvents`), so the candidates can be one
namespace twice. Different namespaces always make different qualified names (`Name.qualify_inj`).
-/

namespace SourceModel

/-! ## Imports -/

namespace Event

/-- The namespace that a wildcard import names. -/
def wildcard? : Event → Option String
  | .importName name .wildcard => some name
  | _ => none

theorem wildcard?_eq (event : Event) :
    event.wildcard? = (event.import?.filter (·.kind = .wildcard)).map (·.name) := by
  cases event with
  | importName name kind => cases kind <;> rfl
  | _ => rfl

end Event

theorem SourceUnit.imports_addDecl (u : SourceUnit) (x : Declaration) :
    (u.addDecl x).imports = u.imports := by
  unfold SourceUnit.addDecl
  cases x.container <;> rfl

namespace Draft

variable {d e : Draft} {event : Event}

/-- An event adds the import that it reports, and no other event touches the imports. -/
theorem imports_of_eq_ok (h : d.feed event = .ok e) :
    e.unit.imports = d.unit.imports ++ event.import?.toList := by
  obtain ⟨effect, -, rfl⟩ := exists_effect_of_eq_ok h
  cases effect with
  | opens x => exact congrArg (· ++ event.import?.toList) (SourceUnit.imports_addDecl d.unit x)
  | _ => rfl

theorem imports_of_feedAll {events : List Event} (h : d.feedAll events = .ok e) :
    e.unit.imports = d.unit.imports ++ events.filterMap Event.import? := by
  induction events generalizing d with
  | nil =>
    cases h
    exact (List.append_nil _).symm
  | cons event events ih =>
    obtain ⟨next, hnext, hrest⟩ := bind_eq_ok_iff.mp h
    rw [ih hrest, imports_of_eq_ok hnext, List.append_assoc, List.filterMap_cons]
    cases event.import? <;> rfl

end Draft

namespace SourceUnit

variable {strict : Bool} {events : List Event} {u : SourceUnit}

/-- The imports of a unit are those that its source reports, in their order. -/
theorem imports_of_ofEvents (h : ofEvents strict events = .ok u) :
    u.imports = events.filterMap Event.import? := by
  obtain ⟨d, hd, hfinish⟩ := ofEvents_eq_ok_iff.mp h
  rw [← Draft.unit_eq_of_finish_eq_ok hfinish, Draft.imports_of_feedAll hd]
  rfl

theorem wildcards_of_ofEvents (h : ofEvents strict events = .ok u) :
    Lookup.namespaces u = events.filterMap Event.wildcard? := by
  unfold Lookup.namespaces
  rw [imports_of_ofEvents h, List.filter_filterMap, List.map_filterMap]
  exact List.filterMap_congr fun event _ => (event.wildcard?_eq).symm

end SourceUnit

/-! ## Candidates -/

/-- A name has different qualified names in different namespaces. -/
theorem Name.qualify_inj {a b s : String} (h : Name.qualify (some a) s = Name.qualify (some b) s) :
    a = b := by
  have hlength : ∀ q : String, s ≠ q ++ "." ++ s := by
    intro q hq
    have hl := congrArg String.length hq
    simp only [String.length_append] at hl
    have hdot : ".".length = 1 := rfl
    omega
  by_cases ha : a = ""
  · by_cases hb : b = ""
    · rw [ha, hb]
    · rw [ha, Name.qualify_of_ne_empty hb] at h
      exact absurd h (hlength b)
  · by_cases hb : b = ""
    · rw [hb, Name.qualify_of_ne_empty ha] at h
      exact absurd h.symm (hlength a)
    · rw [Name.qualify_of_ne_empty ha, Name.qualify_of_ne_empty hb] at h
      have hlist := congrArg String.toList h
      simp only [String.toList_append, List.append_assoc] at hlist
      exact String.toList_inj.mp (List.append_cancel_right hlist)

namespace Project

variable {p : Project} {u : SourceUnit} {scope origin : Scope} {name s : String}
  {rest candidates : List String}

theorem follow_eq_ambiguous_iff {r : Except LookupError Target} :
    p.follow scope name rest r = .error (.ambiguous origin s candidates) ↔
      r = .error (.ambiguous origin s candidates) := by
  match r with
  | .ok t =>
    rw [follow_ok]
    cases p.descend? t rest <;> simp
  | .error (.unresolved _ _) => simp [follow]
  | .error (.ambiguous _ _ _) => simp [follow]
  | .error (.notAnnotationType _ _ _) => simp [follow]

/-- The candidates of an ambiguous name are the namespaces of all wildcard imports of the source, of
which there are two or more. Two of them are different, and make different qualified names of the
first segment, unless all these imports are of one namespace. -/
theorem resolve_ambiguous_lists_wildcards {strict : Bool} {sources : List (List Event)}
    (hp : load strict sources = .ok p)
    (h : p.resolve scope name = .error (.ambiguous origin s candidates)) :
    (Name.segments name).head? = some s ∧
    ∃ events, sources[scope.unit]? = some events ∧
      candidates = events.filterMap Event.wildcard? ∧ 2 ≤ candidates.length ∧
      ((∃ a ∈ candidates, ∃ b ∈ candidates,
          a ≠ b ∧ Name.qualify (some a) s ≠ Name.qualify (some b) s) ↔
        ¬ ∃ ns, ∀ a ∈ candidates, a = ns) := by
  obtain ⟨first, rest, hname⟩ := Name.exists_segments_eq_cons name
  rw [resolve_eq_follow hname, follow_eq_ambiguous_iff] at h
  cases hu : p.unit? scope.unit with
  | none =>
    unfold resolveSimple at h
    rw [hu] at h
    cases h
  | some u =>
    obtain ⟨htwo, heq⟩ := ambiguous_of_resolveSimple hu h
    cases heq
    obtain ⟨units, hb, -, rfl⟩ := load_eq_ok_iff.mp hp
    obtain ⟨events, hevents, hread⟩ := hb.exists_source hu
    refine ⟨by rw [hname]; rfl, events, hevents, ?_, htwo, ?_⟩
    · exact SourceUnit.wildcards_of_ofEvents hread
    · constructor
      · rintro ⟨a, ha, b, hb, hab, -⟩ ⟨ns, hns⟩
        exact hab ((hns a ha).trans (hns b hb).symm)
      · intro hns
        have hpos : 0 < (Lookup.namespaces u).length := by omega
        obtain ⟨a, as, hw⟩ := List.exists_cons_of_length_pos hpos
        have hfirst : a ∈ Lookup.namespaces u := by simp [hw]
        simp only [not_exists, not_forall] at hns
        obtain ⟨b, hb, hne⟩ := hns a
        exact ⟨b, hb, a, hfirst, hne, fun hq => hne (Name.qualify_inj hq)⟩

/-- A wildcard import that is written twice makes a name ambiguous, although both are of the same
namespace. -/
theorem resolve_ambiguous_repeated_wildcard :
    ∃ p, load true [[.importName "a" .wildcard, .importName "a" .wildcard,
        .enterType .classType "C", .exitType]] = .ok p ∧
      p.resolve ⟨0, .unit⟩ "Foo" = .error (.ambiguous ⟨0, .unit⟩ "Foo" ["a", "a"]) ∧
      ¬ ∃ x ∈ ["a", "a"], ∃ y ∈ ["a", "a"], x ≠ y :=
  ⟨_, load_of_built (.cons (by rfl) .nil) (by decide +kernel), by decide +kernel, by decide⟩

/-- With two different wildcard imports, of which one is repeated, there are two different
candidates. -/
theorem resolve_ambiguous_of_two_wildcards :
    ∃ p, load true [[.importName "a" .wildcard, .importName "b" .wildcard,
        .importName "a" .wildcard]] = .ok p ∧
      p.resolve ⟨0, .unit⟩ "Foo.Bar" = .error (.ambiguous ⟨0, .unit⟩ "Foo" ["a", "b", "a"]) ∧
      ∃ x ∈ ["a", "b", "a"], ∃ y ∈ ["a", "b", "a"],
        x ≠ y ∧ Name.qualify (some x) "Foo" ≠ Name.qualify (some y) "Foo" := by
  obtain ⟨p, hp, hr⟩ : ∃ p, load true [[.importName "a" .wildcard,
        .importName "b" .wildcard, .importName "a" .wildcard]] = .ok p ∧
      p.resolve ⟨0, .unit⟩ "Foo.Bar" = .error (.ambiguous ⟨0, .unit⟩ "Foo" ["a", "b", "a"]) :=
    ⟨_, load_of_built (.cons (by rfl) .nil) (by decide +kernel), by decide +kernel⟩
  obtain ⟨-, events, -, -, -, hiff⟩ := resolve_ambiguous_lists_wildcards hp hr
  refine ⟨p, hp, hr, hiff.mpr ?_⟩
  rintro ⟨ns, hns⟩
  have hab : "a" = "b" := (hns "a" (by decide)).trans (hns "b" (by decide)).symm
  exact absurd hab (by decide)

end Project

end SourceModel
