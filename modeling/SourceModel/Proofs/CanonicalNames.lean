import SourceModel.Proofs.Descent

/-!
# Canonical names

Looking up a name only ever adds in front of it: the canonical name of what a name stands for is
that name, or ends with it after a dot (`Name.EndsWith`). For the first segment this is so rule by
rule, since a qualified name ends with the name of its declaration and an import is found by its
last segment. Every further segment is then put at the end of both names.
-/

namespace SourceModel

/-! ## Names that end with a name -/

namespace Name

variable {full name s : String}

theorem qualified_ne_empty (qualifier name : String) : qualifier ++ "." ++ name ≠ "" := by
  intro h
  have hlength := congrArg String.length h
  simp at hlength

theorem EndsWith.ne_empty (h : EndsWith full name) (hname : name ≠ "") : full ≠ "" := by
  obtain rfl | ⟨qualifier, rfl⟩ := h
  · exact hname
  · exact qualified_ne_empty qualifier name

/-- Two segments that are already put together count as one. -/
theorem join_qualified (q s : String) (rest : List String) :
    join ((q ++ "." ++ s) :: rest) = join (q :: s :: rest) := by
  cases rest with
  | nil => rfl
  | cons t rest =>
    simp only [join_cons_cons, String.append_assoc]

/-- What follows both names does not matter. -/
theorem EndsWith.join (h : EndsWith full s) (rest : List String) :
    EndsWith (join (full :: rest)) (Name.join (s :: rest)) := by
  obtain rfl | ⟨qualifier, rfl⟩ := h
  · exact .inl rfl
  · refine .inr ⟨qualifier, ?_⟩
    rw [join_qualified, join_cons_cons]

end Name

theorem Lookup.endsWith_inNamespace (ns name : String) :
    Name.EndsWith (inNamespace name ns) name := by
  unfold inNamespace
  split
  · exact .inl rfl
  · exact .inr ⟨ns, rfl⟩

/-! ## Declarations -/

namespace SourceUnit

variable {u : SourceUnit} {id : Nat} {d : Declaration}

theorem endsWith_qualifiedName (hu : u.WellFormed) (h : u.decl? id = some d) :
    Name.EndsWith (u.qualifiedName id) d.name := by
  rw [qualifiedName_eq hu h]
  exact Name.endsWith_join_concat _ d.name

/-- The qualified name of a nested type is that of the type around it with one more segment. -/
theorem qualifiedName_nested {inner : Nat} {name : String} (hu : u.WellFormed)
    (h : u.IsNamedIn (.type id) name inner) :
    u.qualifiedName inner = u.qualifiedName id ++ "." ++ name := by
  obtain ⟨e, he, hc, rfl⟩ := h
  obtain ⟨d, hd⟩ : ∃ d, u.decl? id = some d := by
    have hin := containerOf?_eq_some he
    rw [hc] at hin
    have hlt := Nat.lt_trans (hu.parent_lt hin) (lt_length_of_containerOf? hin)
    exact ⟨_, List.getElem?_eq_getElem hlt⟩
  have hne : u.package.toList ++ ((u.chain (.type id)).map (·.2.name)).reverse ≠ [] := by
    simp [chain_type hu hd]
  rw [qualifiedName_eq hu he, hc, Name.join_concat hne]
  rfl

end SourceUnit

namespace Project

variable {p : Project} {u : SourceUnit} {scope : Scope} {name s : String} {rest : List String}
  {t inner : Target} {i : Nat}

theorem qualifiedName_eq (hu : p.unit? i = some u) (id : Nat) :
    p.qualifiedName ⟨i, id⟩ = u.qualifiedName id := by
  show ((p.unit? i).map (·.qualifiedName id)).getD "" = u.qualifiedName id
  rw [hu]
  rfl

namespace Loaded

theorem endsWith_canonicalName (hp : p.Loaded) (hu : p.unit? i = some u) {id : Nat}
    {d : Declaration} (hd : u.decl? id = some d) :
    Name.EndsWith ((Target.declared ⟨i, id⟩).canonicalName p) d.name := by
  show Name.EndsWith (p.qualifiedName ⟨i, id⟩) d.name
  rw [qualifiedName_eq hu]
  exact SourceUnit.endsWith_qualifiedName (hp.wellFormed hu) hd

theorem endsWith_of_isNamedIn (hp : p.Loaded) (hu : p.unit? i = some u) {c : Container} {id : Nat}
    (h : u.IsNamedIn c name id) :
    Name.EndsWith ((Target.declared ⟨i, id⟩).canonicalName p) name := by
  obtain ⟨d, hd, -, rfl⟩ := h
  exact hp.endsWith_canonicalName hu hd

/-! ## Simple names -/

theorem canonicalName_of_byTypeParam (hu : p.unit? scope.unit = some u)
    (h : Lookup.ByTypeParam u scope name t) : t.canonicalName p = name := by
  obtain ⟨n, owner, d, hd, ⟨index, ⟨⟨param, hparam, rfl⟩, -⟩, rfl⟩, -⟩ := h
  show (((p.decl? ⟨scope.unit, owner⟩).bind fun d => d.typeParams[index]?).map _).getD "" = _
  rw [decl?_eq_some hu hd.decl?, Option.bind_some, hparam]
  rfl

theorem endsWith_of_byEnclosing (hp : p.Loaded) (hu : p.unit? scope.unit = some u)
    (h : Lookup.ByEnclosing u scope name t) : Name.EndsWith (t.canonicalName p) name := by
  obtain ⟨n, level, d, hd, ⟨rfl, rfl⟩ | ⟨-, inner, hinner, rfl⟩, -⟩ := h
  · exact hp.endsWith_canonicalName hu hd.decl?
  · exact hp.endsWith_of_isNamedIn hu hinner

theorem endsWith_of_byImport (hp : p.Loaded) (h : Lookup.ByImport p u name t) :
    Name.EndsWith (t.canonicalName p) name := by
  obtain ⟨before, i, after, -, ⟨-, rfl⟩, -, ⟨id, hid, rfl⟩ | ⟨-, rfl⟩⟩ := h
  · show Name.EndsWith (p.qualifiedName id) (Name.lastSegment i.name)
    rw [(hp.named_iff.mp hid).2]
    exact Name.endsWith_lastSegment i.name
  · exact Name.endsWith_lastSegment i.name

theorem endsWith_of_bySamePackage (hp : p.Loaded) (h : Lookup.BySamePackage p u name t) :
    Name.EndsWith (t.canonicalName p) name := by
  obtain ⟨id, ⟨v, hv, -, hid⟩, rfl⟩ := h
  exact hp.endsWith_of_isNamedIn hv hid

theorem endsWith_of_resolveSimple (hp : p.Loaded) (h : p.resolveSimple scope name = .ok t) :
    Name.EndsWith (t.canonicalName p) name := by
  obtain ⟨u, hu⟩ := exists_unit_of_resolveSimple h
  rcases Lookup.rule_of_resolveSimple hp hu h with hr | hr | hr | hr | hr | hr | hr
  · exact .inl (canonicalName_of_byTypeParam hu hr)
  · exact hp.endsWith_of_byEnclosing hu hr
  · exact hp.endsWith_of_byImport hr
  · exact hp.endsWith_of_bySamePackage hr
  · obtain ⟨-, rfl⟩ := hr
    exact .inr ⟨"java.lang", rfl⟩
  · obtain ⟨ns, -, rfl⟩ := hr
    exact Lookup.endsWith_inNamespace ns name
  · obtain ⟨-, rfl⟩ := hr
    exact Lookup.endsWith_inNamespace _ name

/-! ## Dotted names -/

/-- One step inside adds one segment at the end. -/
theorem canonicalName_of_member? (hp : p.Loaded) (h : p.member? s t = some inner)
    (hne : t.canonicalName p ≠ "") :
    inner.canonicalName p = t.canonicalName p ++ "." ++ s := by
  cases t with
  | declared id =>
    obtain ⟨k, rfl, hunit, u, hu, hk⟩ := hp.member?_declared_eq_some_iff.mp h
    obtain ⟨i, k⟩ := k
    change i = id.unit at hunit
    subst hunit
    show p.qualifiedName ⟨id.unit, k⟩ = p.qualifiedName id ++ "." ++ s
    have hid : p.qualifiedName id = u.qualifiedName id.decl := qualifiedName_eq hu id.decl
    rw [qualifiedName_eq hu, hid]
    exact SourceUnit.qualifiedName_nested (hp.wellFormed hu) hk
  | typeParam owner index => cases h
  | external outer =>
    cases h
    exact Name.qualify_of_ne_empty hne s

/-- The segments that lead from a target to another are the end of its canonical name. -/
theorem canonicalName_of_descend? (hp : p.Loaded) (h : p.descend? t rest = some inner)
    (hne : t.canonicalName p ≠ "") :
    inner.canonicalName p = Name.join (t.canonicalName p :: rest) := by
  induction rest generalizing t with
  | nil =>
    cases h
    rfl
  | cons x rest ih =>
    obtain ⟨next, hnext, hrest⟩ := Option.bind_eq_some_iff.mp h
    have hstep := hp.canonicalName_of_member? hnext hne
    have hne' : next.canonicalName p ≠ "" := by
      rw [hstep]
      exact Name.qualified_ne_empty _ x
    rw [ih hrest hne', hstep, Name.join_qualified]

end Loaded

/-- Looking up a name only adds in front of it: the canonical name of the target is the name, or
ends with it after a dot. -/
theorem resolve_only_adds_in_front {strict : Bool} {sources : List (List Event)}
    (hp : load strict sources = .ok p) (hfirst : (Name.segments name).head? ≠ some "")
    (h : p.resolve scope name = .ok t) :
    Name.EndsWith (t.canonicalName p) name := by
  have hl := loaded_of_load hp
  obtain ⟨s, rest, hname⟩ := Name.exists_segments_eq_cons name
  have hs : s ≠ "" := by
    rintro rfl
    rw [hname] at hfirst
    exact hfirst rfl
  rw [resolve_eq_follow hname, follow_eq_ok_iff] at h
  obtain ⟨first, hsimple, hdescend⟩ := h
  have hends := hl.endsWith_of_resolveSimple hsimple
  have hjoin : Name.join (s :: rest) = name := by rw [← hname, Name.join_segments]
  rw [hl.canonicalName_of_descend? hdescend (hends.ne_empty hs), ← hjoin]
  exact hends.join rest

/-- An imported type keeps the segments that were written, whether it is declared in the project or
not. -/
theorem resolve_adds_package_in_front :
    ∃ p, load true [[.package "a.b", .enterType .classType "A", .enterType .classType "B",
        .exitType, .exitType],
        [.package "c", .importName "a.b.A" .single, .importName "d.X" .single]] = .ok p ∧
      p.resolve ⟨1, .unit⟩ "A.B" = .ok (.declared ⟨0, 1⟩) ∧
      Name.EndsWith ((Target.declared ⟨0, 1⟩).canonicalName p) "A.B" ∧
      p.resolve ⟨1, .unit⟩ "X..Y" = .ok (.external "d.X..Y") ∧
      Name.EndsWith "d.X..Y" "X..Y" := by
  obtain ⟨p, hp, hinner, houtside⟩ : ∃ p, load true [[.package "a.b",
        .enterType .classType "A", .enterType .classType "B", .exitType, .exitType],
        [.package "c", .importName "a.b.A" .single, .importName "d.X" .single]] = .ok p ∧
      p.resolve ⟨1, .unit⟩ "A.B" = .ok (.declared ⟨0, 1⟩) ∧
      p.resolve ⟨1, .unit⟩ "X..Y" = .ok (.external "d.X..Y") :=
    ⟨_, load_of_built (.cons (by rfl) (.cons (by rfl) .nil)) (by decide +kernel), by decide +kernel,
      by decide +kernel⟩
  exact ⟨p, hp, hinner, resolve_only_adds_in_front hp (by decide) hinner, houtside,
    resolve_only_adds_in_front hp (by decide) houtside⟩

end Project

end SourceModel
