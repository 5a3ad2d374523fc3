import SourceModel.Proofs.CanonicalNames

/-!
# Look-ups stay inside the tables

Look-ups follow positions: containers outward, lists of nested and top-level types, entries of the
index, targets of qualifiers. `Unguarded` holds the same look-ups without any precaution. There a
position that is not in its table gives `none`, and so does a search that takes more steps than are
granted, which one without end does for any number of them. In a loaded project none of this happens
if steps are granted for the declarations of the unit and the segments of the name, and the answers
are those of the guarded look-ups.

1. In a well-formed table a search outward ends, and every declaration that it asks is there
   (`Unguarded.searchOut_eq`).
2. The lists of a container hold declarations of the unit (`Unguarded.findNamed_eq`).
3. A target is in the project, so the step to what is inside it is safe, and so is the walk along a
   dotted name (`Unguarded.resolve_eq`).
-/

namespace SourceModel

/-! ## Look-ups without precautions -/

namespace Unguarded

/-- Asks the declarations around a place, from the inside out, until one has an answer. -/
def searchOut {α : Type} (u : SourceUnit) (ask : Nat → Declaration → Option (Option α)) :
    Nat → Container → Option (Option α)
  | _, .unit => some none
  | 0, .type _ => none
  | steps + 1, .type id => do
    let d ← u.decl? id
    match ← ask id d with
    | some a => return some a
    | none => searchOut u ask steps d.container

/-- The names of the declarations around a place, from the inside out. -/
def namesAround (u : SourceUnit) : Nat → Container → Option (List String)
  | _, .unit => some []
  | 0, .type _ => none
  | steps + 1, .type id => do
    let d ← u.decl? id
    let outer ← namesAround u steps d.container
    return d.name :: outer

/-- The first of some declarations that has the name. -/
def findNamed (u : SourceUnit) (name : String) : List Nat → Option (Option Nat)
  | [] => some none
  | id :: ids => do
    let d ← u.decl? id
    if d.name == name then return some id else findNamed u name ids

def findNested (u : SourceUnit) (id : Nat) (name : String) : Option (Option Nat) := do
  let d ← u.decl? id
  findNamed u name d.nested

/-- What a search finds, or else the answer that comes after it. -/
def orElse (search : Option (Option Target)) (other : Option (Except LookupError Target)) :
    Option (Except LookupError Target) := do
  match ← search with
  | some t => return .ok t
  | none => other

def typeParam (u : SourceUnit) (scope : Scope) (steps : Nat) (name : String) :
    Option (Option Target) :=
  searchOut u (fun id d => some ((d.typeParams.findIdx? (·.name == name)).map
    (.typeParam ⟨scope.unit, id⟩))) steps scope.container

def enclosing (u : SourceUnit) (scope : Scope) (steps : Nat) (name : String) :
    Option (Option Target) := do
  let found ← searchOut u (fun id d =>
    if d.name == name then some (some id) else findNested u id name) steps scope.container
  return found.map fun id => .declared ⟨scope.unit, id⟩

/-- The first top-level type of the name in some units. -/
def findTopLevel (name : String) : List (SourceUnit × Nat) → Option (Option Target)
  | [] => some none
  | (v, i) :: rest => do
    match ← findNamed v name v.topLevel with
    | some id => return some (.declared ⟨i, id⟩)
    | none => findTopLevel name rest

def resolveSimple (p : Project) (scope : Scope) (steps : Nat) (name : String) :
    Option (Except LookupError Target) := do
  let u ← p.unit? scope.unit
  orElse (typeParam u scope steps name) <| orElse (enclosing u scope steps name) <|
    orElse (some (Lookup.imported? p u name)) <|
    orElse (findTopLevel name (p.unitsOf u.package)) <|
    orElse (some (Lookup.core? name)) <| some (Lookup.outside u scope name)

def member (p : Project) (s : String) : Target → Option (Option Target)
  | .declared id => do
    let u ← p.unit? id.unit
    let inner ← findNested u id.decl s
    return inner.map fun inner => .declared ⟨id.unit, inner⟩
  | .typeParam _ _ => some none
  | .external outer => some (some (.external (Name.qualify (some outer) s)))

/-- A name with a qualifier needs the target of the qualifier first. -/
def resolve (p : Project) (scope : Scope) : Nat → String → Option (Except LookupError Target)
  | 0, _ => none
  | steps + 1, name =>
    match Name.splitLast name with
    | (none, _) => resolveSimple p scope steps name
    | (some qualifier, s) => do
      match ← resolve p scope steps qualifier with
      | .ok t =>
        match ← member p s t with
        | some inner => return .ok inner
        | none => return .error (.unresolved scope name)
      | .error (.unresolved _ _) => return .error (.unresolved scope name)
      | .error e => return .error e

def canonicalName (p : Project) (steps : Nat) : Target → Option String
  | .declared id => do
    let u ← p.unit? id.unit
    let names ← namesAround u steps (.type id.decl)
    return Name.join (u.package.toList ++ names.reverse)
  | .typeParam owner index => do
    let u ← p.unit? owner.unit
    let d ← u.decl? owner.decl
    let param ← d.typeParams[index]?
    return param.name
  | .external name => some name

/-! ## Inside one table -/

section Table

variable {u : SourceUnit} {c : Container} {name : String} {steps id : Nat} {d : Declaration}

/-- The container is the unit or one of the first `n` declarations. -/
def Below (n : Nat) (c : Container) : Prop :=
  ∀ id, c = .type id → id < n

theorem Below.mono {m n : Nat} (h : Below m c) (hle : m ≤ n) : Below n c :=
  fun id hid => Nat.lt_of_lt_of_le (h id hid) hle

theorem below_container (hu : u.WellFormed) (h : u.decl? id = some d) : Below id d.container := by
  intro parent hparent
  have hin := SourceUnit.containerOf?_eq_some h
  rw [hparent] at hin
  exact hu.parent_lt hin

theorem Below.exists_decl (h : Below u.typeCount (.type id)) : ∃ d, u.decl? id = some d :=
  ⟨_, List.getElem?_eq_getElem (h id rfl)⟩

/-- A declaration comes after the one around it, so a search takes no more steps than its position
in the table. -/
theorem searchOut_eq {α : Type} (hu : u.WellFormed) {ask : Nat → Declaration → Option (Option α)}
    {f : Nat × Declaration → Option α}
    (hask : ∀ id d, u.decl? id = some d → ask id d = some (f (id, d)))
    (hc : Below u.typeCount c) (hsteps : Below steps c) :
    searchOut u ask steps c = some ((u.chain c).findSome? f) := by
  induction steps generalizing c with
  | zero =>
    cases c with
    | unit => rw [searchOut, SourceUnit.chain_unit]; rfl
    | type id => exact absurd (hsteps id rfl) (Nat.not_lt_zero id)
  | succ steps ih =>
    cases c with
    | unit => rw [searchOut, SourceUnit.chain_unit]; rfl
    | type id =>
      obtain ⟨d, hd⟩ := hc.exists_decl
      have hout := below_container hu hd
      rw [searchOut, SourceUnit.chain_type hu hd, List.findSome?_cons, hd]
      show (ask id d >>= _) = _
      rw [hask id d hd]
      cases f (id, d) with
      | some a => rfl
      | none =>
        have hid := hc id rfl
        exact ih (hout.mono (Nat.le_of_lt hid)) (hout.mono (Nat.le_of_lt_succ (hsteps id rfl)))

theorem namesAround_eq (hu : u.WellFormed) (hc : Below u.typeCount c) (hsteps : Below steps c) :
    namesAround u steps c = some ((u.chain c).map (·.2.name)) := by
  induction steps generalizing c with
  | zero =>
    cases c with
    | unit => rw [namesAround, SourceUnit.chain_unit]; rfl
    | type id => exact absurd (hsteps id rfl) (Nat.not_lt_zero id)
  | succ steps ih =>
    cases c with
    | unit => rw [namesAround, SourceUnit.chain_unit]; rfl
    | type id =>
      obtain ⟨d, hd⟩ := hc.exists_decl
      have hout := below_container hu hd
      have hid := hc id rfl
      have houter := ih (hout.mono (Nat.le_of_lt hid))
        (hout.mono (Nat.le_of_lt_succ (hsteps id rfl)))
      rw [namesAround, SourceUnit.chain_type hu hd, hd]
      show (namesAround u steps d.container >>= _) = _
      rw [houter]
      rfl

theorem findNamed_eq (hu : u.WellFormed) {ids : List Nat} (hids : ∀ id ∈ ids, id ∈ u.entries c) :
    findNamed u name ids = some (ids.find? (u.isNamed name)) := by
  induction ids with
  | nil => rfl
  | cons id ids ih =>
    have hin := ((hu.lists c).mem_iff id).mp (hids id (.head _))
    obtain ⟨d, hd, -⟩ := Option.map_eq_some_iff.mp hin
    have hnamed : u.isNamed name id = (d.name == name) := by
      unfold SourceUnit.isNamed
      rw [hd]
      rfl
    rw [findNamed, hd, List.find?_cons, hnamed]
    show (if d.name == name then _ else _) = _
    cases d.name == name with
    | true => rfl
    | false => exact ih fun id hid => hids id (.tail _ hid)

theorem findNested_eq (hu : u.WellFormed) (hd : u.decl? id = some d) :
    findNested u id name = some (u.findNested? id name) := by
  unfold findNested SourceUnit.findNested?
  rw [hd]
  refine findNamed_eq (c := .type id) hu fun child hchild => ?_
  rw [SourceUnit.entries_type, hd]
  exact hchild

theorem typeParam_eq {scope : Scope} (hu : u.WellFormed) (hc : Below u.typeCount scope.container)
    (hsteps : Below steps scope.container) :
    typeParam u scope steps name = some (Lookup.typeParam? u scope name) := by
  refine searchOut_eq hu (fun id d _ => ?_) hc hsteps
  rfl

theorem enclosing_eq {scope : Scope} (hu : u.WellFormed) (hc : Below u.typeCount scope.container)
    (hsteps : Below steps scope.container) :
    enclosing u scope steps name = some (Lookup.enclosing? u scope name) := by
  unfold enclosing
  rw [searchOut_eq (f := fun x => if x.2.name == name then some x.1 else u.findNested? x.1 name)
    hu ?_ hc hsteps]
  · rfl
  · intro id d hd
    by_cases hn : d.name == name
    · simp [hn]
    · simp [hn, findNested_eq hu hd]

end Table

/-! ## In a loaded project -/

section Loaded

variable {p : Project} {u : SourceUnit} {scope : Scope} {name s : String} {t : Target} {steps : Nat}

theorem findTopLevel_eq (hp : p.Loaded) {units : List (SourceUnit × Nat)}
    (hunits : ∀ x ∈ units, p.unit? x.2 = some x.1) :
    findTopLevel name units = some (units.findSome? fun (v, i) =>
      (v.findTopLevel? name).map fun id => .declared ⟨i, id⟩) := by
  induction units with
  | nil => rfl
  | cons x units ih =>
    have hv := hp.wellFormed (hunits x (.head _))
    have hfound : findNamed x.1 name x.1.topLevel = some (x.1.findTopLevel? name) :=
      findNamed_eq (c := .unit) hv fun id hid => hid
    rw [findTopLevel, hfound, List.findSome?_cons]
    cases hx : x.1.findTopLevel? name with
    | some id => simp [hx]
    | none =>
      simp only [hx, Option.map_none]
      exact ih fun y hy => hunits y (.tail _ hy)

theorem orElse_some (found : Option Target) (other : Except LookupError Target) :
    orElse (some found) (some other) = some (found.elim other .ok) := by
  cases found <;> rfl

theorem resolveSimple_eq (hp : p.Loaded) (hu : p.unit? scope.unit = some u)
    (hc : Below u.typeCount scope.container) (hsteps : u.typeCount ≤ steps) :
    resolveSimple p scope steps name = some (p.resolveSimple scope name) := by
  have henough := hc.mono hsteps
  have hpackage : findTopLevel name (p.unitsOf u.package) = some (Lookup.samePackage? p u name) :=
    findTopLevel_eq hp fun x hx => (Lookup.mem_unitsOf_iff.mp hx).1
  rw [Lookup.resolveSimple_eq_elim hu]
  simp only [Lookup.elim_orElse, ← orElse_some]
  rw [← typeParam_eq (hp.wellFormed hu) hc henough, ← enclosing_eq (hp.wellFormed hu) hc henough,
    ← hpackage]
  unfold resolveSimple
  rw [hu]
  rfl

theorem member_eq (hp : p.Loaded) (ht : t.StandsIn p) :
    member p s t = some (p.member? s t) := by
  cases t with
  | declared id =>
    obtain ⟨d, hd⟩ := ht
    obtain ⟨u, hu, hd⟩ := Option.bind_eq_some_iff.mp hd
    show (p.unit? id.unit >>= _) =
      some (((p.unit? id.unit).bind fun u => u.findNested? id.decl s).map _)
    rw [hu]
    show (findNested u id.decl s >>= _) = _
    rw [findNested_eq (hp.wellFormed hu) hd]
    rfl
  | typeParam owner index => rfl
  | external outer => rfl

/-- The qualifier has a segment less, so it is done with a step less. -/
theorem resolve_eq (hp : p.Loaded) (hu : p.unit? scope.unit = some u)
    (hc : Below u.typeCount scope.container)
    (hsteps : u.typeCount + (Name.segments name).length ≤ steps) :
    resolve p scope steps name = some (p.resolve scope name) := by
  induction steps generalizing name with
  | zero =>
    obtain ⟨x, xs, hx⟩ := Name.exists_segments_eq_cons name
    rw [hx, List.length_cons] at hsteps
    omega
  | succ steps ih =>
    rcases Name.splitLast_cases name with ⟨hsplit, hone⟩ | ⟨q, s, hsplit, hsegments⟩
    · have henough : u.typeCount ≤ steps := by
        rw [hone, List.length_singleton] at hsteps
        omega
      rw [resolve, hsplit]
      show resolveSimple p scope steps name = _
      rw [resolveSimple_eq hp hu hc henough]
      unfold Project.resolve
      rw [hone]
      rfl
    · have hshort : u.typeCount + (Name.segments q).length ≤ steps := by
        rw [hsegments, List.length_append, List.length_singleton] at hsteps
        omega
      have hreversed : (Name.segments q).reverse ≠ [] := by
        obtain ⟨x, xs, hx⟩ := Name.exists_segments_eq_cons q
        simp [hx]
      have hname : Name.join (s :: (Name.segments q).reverse).reverse = name := by
        rw [List.reverse_cons, List.reverse_reverse, ← hsegments, Name.join_segments]
      have hfollow : p.resolve scope name =
          p.follow scope name [s] (p.resolve scope q) := by
        unfold Project.resolve
        rw [hsegments, List.reverse_append, List.reverse_singleton, List.singleton_append,
          Project.resolveReversed_cons hreversed, hname]
      rw [resolve, hsplit, hfollow]
      show (resolve p scope steps q >>= _) = _
      rw [ih hshort]
      cases hq : p.resolve scope q with
      | error e => cases e <;> rfl
      | ok t =>
        have hstep : p.descend? t [s] = p.member? s t := Option.bind_fun_some _
        rw [Project.follow_ok, hstep]
        show (member p s t >>= _) = _
        rw [member_eq hp (hp.standsIn_of_resolve hq)]
        cases p.member? s t <;> rfl

theorem canonicalName_eq (hp : p.Loaded) (ht : t.StandsIn p)
    (hsteps : ∀ v ∈ p.units, v.typeCount ≤ steps) :
    canonicalName p steps t = some (t.canonicalName p) := by
  cases t with
  | declared id =>
    obtain ⟨d, hd⟩ := ht
    obtain ⟨u, hu, hd⟩ := Option.bind_eq_some_iff.mp hd
    have hid : Below u.typeCount (.type id.decl) := by
      rintro _ ⟨⟩
      exact (List.getElem?_eq_some_iff.mp hd).1
    have henough := hid.mono (hsteps u (List.mem_of_getElem? hu))
    show (p.unit? id.unit >>= _) = some (p.qualifiedName id)
    rw [hu]
    show (namesAround u steps (.type id.decl) >>= _) = _
    rw [namesAround_eq (hp.wellFormed hu) hid henough]
    exact congrArg some (Project.qualifiedName_eq hu id.decl).symm
  | typeParam owner index =>
    obtain ⟨d, param, hd, hparam⟩ := ht
    have hname : (Target.typeParam owner index).canonicalName p = param.name := by
      show (((p.decl? owner).bind fun d => d.typeParams[index]?).map _).getD "" = _
      rw [hd, Option.bind_some, hparam]
      rfl
    obtain ⟨u, hu, hd⟩ := Option.bind_eq_some_iff.mp hd
    rw [hname]
    show (p.unit? owner.unit >>= _) = _
    rw [hu]
    show (u.decl? owner.decl >>= _) = _
    rw [hd]
    show (d.typeParams[index]? >>= _) = _
    rw [hparam]
    rfl
  | external name => rfl

end Loaded

end Unguarded

namespace Project

variable {p : Project} {u : SourceUnit} {scope : Scope} {name : String} {owner : DeclId}
  {index : Nat}

/-- Nothing leads to a type parameter but its own name. -/
theorem descend?_eq_typeParam {t : Target} {rest : List String}
    (h : p.descend? t rest = some (.typeParam owner index)) :
    rest = [] ∧ t = .typeParam owner index := by
  induction rest generalizing t with
  | nil =>
    cases h
    exact ⟨rfl, rfl⟩
  | cons s rest ih =>
    obtain ⟨next, hnext, hrest⟩ := Option.bind_eq_some_iff.mp h
    obtain ⟨-, rfl⟩ := ih hrest
    cases t with
    | declared id =>
      obtain ⟨k, -, heq⟩ := Option.map_eq_some_iff.mp hnext
      cases heq
    | typeParam owner index => cases hnext
    | external outer => cases hnext

theorem Loaded.exists_typeParam_of_resolve (hp : p.Loaded)
    (h : p.resolve scope name = .ok (.typeParam owner index)) :
    ∃ d param, p.decl? owner = some d ∧ d.typeParams[index]? = some param ∧ param.name = name := by
  obtain ⟨s, rest, hname⟩ := Name.exists_segments_eq_cons name
  rw [resolve_eq_follow hname, follow_eq_ok_iff] at h
  obtain ⟨first, hfirst, hdescend⟩ := h
  obtain ⟨rfl, rfl⟩ := descend?_eq_typeParam hdescend
  have hs : name = s := by rw [← Name.join_segments name, hname]; rfl
  subst hs
  obtain ⟨u, hu⟩ := exists_unit_of_resolveSimple hfirst
  rcases Lookup.rule_of_resolveSimple hp hu hfirst with hr | hr | hr | hr | hr | hr | hr
  · obtain ⟨n, level, d, hd, ⟨k, ⟨⟨param, hparam, hparamName⟩, -⟩, heq⟩, -⟩ := hr
    cases heq
    exact ⟨d, param, decl?_eq_some hu hd.decl?, hparam, hparamName⟩
  · obtain ⟨n, level, d, hd, ⟨-, heq⟩ | ⟨-, inner, -, heq⟩, -⟩ := hr
    · cases heq
    · cases heq
  · obtain ⟨before, i, after, -, -, -, ⟨id, -, heq⟩ | ⟨-, heq⟩⟩ := hr
    · cases heq
    · cases heq
  · obtain ⟨id, -, heq⟩ := hr
    cases heq
  · cases hr.2
  · obtain ⟨i, -, heq⟩ := hr
    cases heq
  · cases hr.2

/-- In a loaded project, a name that is looked up in a scope of it has an answer without any
precaution, in no more steps than there are declarations in the unit and segments in the name. A
declared target is in the table of its unit. A target that is a type parameter has the name that was
looked up. And the canonical name of a target is found without any precaution too. -/
theorem resolve_stays_in_range {strict : Bool} {sources : List (List Event)}
    (hp : load strict sources = .ok p) (hu : p.unit? scope.unit = some u)
    (hc : ∀ id, scope.container = .type id → id < u.typeCount) (name : String) :
    (∀ steps, u.typeCount + (Name.segments name).length ≤ steps →
      Unguarded.resolve p scope steps name = some (p.resolve scope name)) ∧
    ∀ t, p.resolve scope name = .ok t →
      (∀ id, t = .declared id → ∃ v, p.unit? id.unit = some v ∧ id.decl < v.typeCount) ∧
      (∀ owner index, t = .typeParam owner index → ∃ v d param, p.unit? owner.unit = some v ∧
        v.decl? owner.decl = some d ∧ d.typeParams[index]? = some param ∧ param.name = name) ∧
      ∀ steps, (∀ v ∈ p.units, v.typeCount ≤ steps) →
        Unguarded.canonicalName p steps t = some (t.canonicalName p) := by
  have hl := loaded_of_load hp
  refine ⟨fun steps => Unguarded.resolve_eq hl hu hc, fun t ht => ?_⟩
  have hstands := hl.standsIn_of_resolve ht
  refine ⟨?_, ?_, fun steps => Unguarded.canonicalName_eq hl hstands⟩
  · rintro id rfl
    obtain ⟨d, hd⟩ := hstands
    obtain ⟨v, hv, hd⟩ := Option.bind_eq_some_iff.mp hd
    exact ⟨v, hv, (List.getElem?_eq_some_iff.mp hd).1⟩
  · rintro owner index rfl
    obtain ⟨d, param, hd, hparam, hname⟩ := hl.exists_typeParam_of_resolve ht
    obtain ⟨v, hv, hd⟩ := Option.bind_eq_some_iff.mp hd
    exact ⟨v, d, param, hv, hd, hparam, hname⟩

/-- From inside a nested type the search for a type parameter ends one level out. -/
theorem resolve_stays_in_range_two_levels :
    ∃ p u, load true [[.package "a", .enterType .classType "Outer", .typeParam "S",
        .typeParam "T", .enterType .classType "Inner", .exitType, .exitType]] = .ok p ∧
      p.unit? 0 = some u ∧ 1 < u.typeCount ∧
      Unguarded.resolve p ⟨0, .type 1⟩ 3 "T" = some (.ok (.typeParam ⟨0, 0⟩ 1)) ∧
      (∃ v d param, p.unit? 0 = some v ∧ v.decl? 0 = some d ∧ d.typeParams[1]? = some param ∧
        param.name = "T") ∧
      Unguarded.resolve p ⟨0, .type 1⟩ 4 "Outer.Inner" = some (.ok (.declared ⟨0, 1⟩)) ∧
      Unguarded.canonicalName p 2 (.declared ⟨0, 1⟩) = some "a.Outer.Inner" := by
  obtain ⟨p, u, hp, hu, hcount, hcounts, hparam, hinner, hname⟩ : ∃ p u, load true [[.package "a",
        .enterType .classType "Outer", .typeParam "S", .typeParam "T",
        .enterType .classType "Inner", .exitType, .exitType]] = .ok p ∧
      p.unit? 0 = some u ∧ u.typeCount = 2 ∧ (∀ v ∈ p.units, v.typeCount ≤ 2) ∧
      p.resolve ⟨0, .type 1⟩ "T" = .ok (.typeParam ⟨0, 0⟩ 1) ∧
      p.resolve ⟨0, .type 1⟩ "Outer.Inner" = .ok (.declared ⟨0, 1⟩) ∧
      (Target.declared ⟨0, 1⟩).canonicalName p = "a.Outer.Inner" :=
    ⟨_, _, load_of_built (.cons (by rfl) .nil) (by decide +kernel), by rfl, by decide, by decide,
      by decide +kernel, by decide +kernel, by decide +kernel⟩
  have hscope : ∀ id, Container.type 1 = .type id → id < u.typeCount := by
    rintro _ ⟨⟩
    rw [hcount]
    decide
  have hall := @resolve_stays_in_range p u ⟨0, .type 1⟩ true _ hp hu hscope
  obtain ⟨hsafe, htarget⟩ := hall "T"
  obtain ⟨hsafe', htarget'⟩ := hall "Outer.Inner"
  rw [hparam] at hsafe
  rw [hinner] at hsafe'
  refine ⟨p, u, hp, hu, by omega, hsafe 3 ?_, (htarget _ hparam).2.1 _ _ rfl, hsafe' 4 ?_, ?_⟩
  · rw [hcount]
    decide
  · rw [hcount]
    decide
  · rw [← hname]
    exact (htarget' _ hinner).2.2 2 hcounts

end Project

end SourceModel
