import SourceModel.Proofs.DottedNames

/-!
# Units under other numbers

The same units may stand in two projects under different numbers. A lookup that starts in such a
unit reaches beyond it in two places only: for the type that an import names, and for the types of
the same package. Where these agree, so do all names that begin with the segment in question
(`resolve_rename`), simple or dotted, targets and errors alike.
-/

namespace SourceModel

/-! ## Renaming -/

def DeclId.rename (f : Nat → Nat) (id : DeclId) : DeclId :=
  ⟨f id.unit, id.decl⟩

def Scope.rename (f : Nat → Nat) (scope : Scope) : Scope :=
  ⟨f scope.unit, scope.container⟩

def Target.rename (f : Nat → Nat) : Target → Target
  | .declared id => .declared (id.rename f)
  | .typeParam owner index => .typeParam (owner.rename f) index
  | .external name => .external name

def LookupError.rename (f : Nat → Nat) : LookupError → LookupError
  | .unresolved scope name => .unresolved (scope.rename f) name
  | .ambiguous scope name candidates => .ambiguous (scope.rename f) name candidates
  | .notAnnotationType scope name found => .notAnnotationType (scope.rename f) name found

/-- The answer to a lookup with the units under their new numbers. -/
def renameAnswer (f : Nat → Nat) : Except LookupError Target → Except LookupError Target
  | .ok t => .ok (t.rename f)
  | .error e => .error (e.rename f)

@[simp] theorem DeclId.rename_id (a : DeclId) : a.rename id = a := rfl

@[simp] theorem Target.rename_id (t : Target) : t.rename id = t := by
  cases t <;> rfl

@[simp] theorem renameAnswer_id (r : Except LookupError Target) : renameAnswer id r = r := by
  match r with
  | .ok t => exact congrArg Except.ok t.rename_id
  | .error (.unresolved _ _) => rfl
  | .error (.ambiguous _ _ _) => rfl
  | .error (.notAnnotationType _ _ _) => rfl

/-! ## Searches beyond the unit -/

section Beyond

variable {p p' : Project} {u : SourceUnit} {s q : String} {f : Nat → Nat}

theorem Project.Loaded.findType?_rename (hp : p.Loaded) (hp' : p'.Loaded)
    (h : ∀ id', Project.Named p'.units id' q ↔
      ∃ id, Project.Named p.units id q ∧ id.rename f = id') :
    p'.findType? q = (p.findType? q).map (DeclId.rename f) := by
  ext id'
  rw [hp'.findType?_eq_some_iff, h, Option.map_eq_some_iff]
  simp only [hp.findType?_eq_some_iff]

theorem Lookup.imported?_rename (h : ∀ i, u.findImport? s = some i →
      p'.findType? i.name = (p.findType? i.name).map (DeclId.rename f)) :
    imported? p' u s = (imported? p u s).map (Target.rename f) := by
  unfold imported?
  cases hi : u.findImport? s with
  | none => rfl
  | some i =>
    simp only [Option.map_some, h i hi]
    cases p.findType? i.name <;> rfl

theorem Lookup.samePackage?_rename (hp : p.Loaded) (hp' : p'.Loaded)
    (h : ∀ id', InPackage p' s u.package id' ↔
      ∃ id, InPackage p s u.package id ∧ id.rename f = id') :
    samePackage? p' u s = (samePackage? p u s).map (Target.rename f) := by
  ext t'
  rw [samePackage?_eq_some_iff hp', Option.map_eq_some_iff]
  simp only [samePackage?_eq_some_iff hp]
  constructor
  · rintro ⟨id', hid', rfl⟩
    obtain ⟨id, hid, rfl⟩ := (h id').mp hid'
    exact ⟨_, ⟨id, hid, rfl⟩, rfl⟩
  · rintro ⟨t, ⟨id, hid, rfl⟩, rfl⟩
    exact ⟨_, (h _).mpr ⟨id, hid, rfl⟩, rfl⟩

end Beyond

/-! ## Simple names -/

namespace Lookup

variable {p p' : Project} {u : SourceUnit} {scope : Scope} {s : String} {f : Nat → Nat}

theorem typeParam?_rename (f : Nat → Nat) (u : SourceUnit) (scope : Scope) (s : String) :
    typeParam? u (scope.rename f) s = (typeParam? u scope s).map (Target.rename f) := by
  unfold typeParam?
  rw [List.map_findSome?]
  congr 1
  funext x
  show _ = (Option.map _ _).map (Target.rename f)
  rw [Option.map_map]
  rfl

theorem enclosing?_rename (f : Nat → Nat) (u : SourceUnit) (scope : Scope) (s : String) :
    enclosing? u (scope.rename f) s = (enclosing? u scope s).map (Target.rename f) := by
  unfold enclosing?
  rw [Option.map_map]
  rfl

theorem core?_rename (f : Nat → Nat) (s : String) :
    (core? s).map (Target.rename f) = core? s := by
  unfold core?
  split <;> rfl

theorem outside_rename (f : Nat → Nat) (u : SourceUnit) (scope : Scope) (s : String) :
    outside u (scope.rename f) s = renameAnswer f (outside u scope s) := by
  unfold outside
  split <;> rfl

theorem elim_map_rename (f : Nat → Nat) (found : Option Target)
    (other : Except LookupError Target) :
    (found.map (Target.rename f)).elim (renameAnswer f other) .ok =
      renameAnswer f (found.elim other .ok) := by
  cases found <;> rfl

theorem resolveSimple_rename (hu : p.unit? scope.unit = some u)
    (hu' : p'.unit? (f scope.unit) = some u)
    (himport : imported? p' u s = (imported? p u s).map (Target.rename f))
    (hpackage : samePackage? p' u s = (samePackage? p u s).map (Target.rename f)) :
    p'.resolveSimple (scope.rename f) s = renameAnswer f (p.resolveSimple scope s) := by
  have hu'' : p'.unit? (scope.rename f).unit = some u := hu'
  rw [resolveSimple_eq_elim hu, resolveSimple_eq_elim hu'']
  simp only [elim_orElse]
  rw [typeParam?_rename, enclosing?_rename, himport, hpackage, ← core?_rename f s, outside_rename,
    elim_map_rename, elim_map_rename, elim_map_rename, elim_map_rename, elim_map_rename,
    core?_rename]

end Lookup

/-! ## Dotted names -/

namespace Project

variable {p p' : Project} {u : SourceUnit} {scope : Scope} {name s : String} {rest : List String}
  {f : Nat → Nat}

/-- The units of `p` stand in `p'`, each under its new number. -/
def UnitsIn (f : Nat → Nat) (p p' : Project) : Prop :=
  ∀ i u, p.unit? i = some u → p'.unit? (f i) = some u

theorem member?_rename (hf : UnitsIn f p p') {t : Target} (ht : t.StandsIn p) (s : String) :
    p'.member? s (t.rename f) = (p.member? s t).map (Target.rename f) := by
  cases t with
  | declared id =>
    obtain ⟨d, hd⟩ := ht
    obtain ⟨u, hu, -⟩ := Option.bind_eq_some_iff.mp hd
    show Option.map _ ((p'.unit? (f id.unit)).bind _) =
      (Option.map _ ((p.unit? id.unit).bind _)).map _
    rw [hu, hf id.unit u hu, Option.map_map]
    rfl
  | typeParam owner index => rfl
  | external outer => rfl

theorem descend?_rename (hp : p.Loaded) (hf : UnitsIn f p p') {t : Target} (ht : t.StandsIn p)
    (rest : List String) :
    p'.descend? (t.rename f) rest = (p.descend? t rest).map (Target.rename f) := by
  induction rest generalizing t with
  | nil => rfl
  | cons s rest ih =>
    show (p'.member? s (t.rename f)).bind (p'.descend? · rest) =
      ((p.member? s t).bind (p.descend? · rest)).map (Target.rename f)
    rw [member?_rename hf ht]
    cases hm : p.member? s t with
    | none => rfl
    | some inner => exact ih (hp.standsIn_of_member? hm)

theorem follow_rename (hp : p.Loaded) (hf : UnitsIn f p p') {r : Except LookupError Target}
    (hr : ∀ t, r = .ok t → t.StandsIn p) :
    p'.follow (scope.rename f) name rest (renameAnswer f r) =
      renameAnswer f (p.follow scope name rest r) := by
  match r with
  | .ok t =>
    show p'.follow _ name rest (.ok (t.rename f)) = _
    rw [follow_ok, follow_ok, descend?_rename hp hf (hr t rfl)]
    cases p.descend? t rest <;> rfl
  | .error (.unresolved _ _) => rfl
  | .error (.ambiguous _ _ _) => rfl
  | .error (.notAnnotationType _ _ _) => rfl

/-- Two projects give the same answers, up to the numbers of the units, for all names whose first
segment they find alike among imports and in the package. -/
theorem resolve_rename (hp : p.Loaded) (hf : UnitsIn f p p') (hu : p.unit? scope.unit = some u)
    (hname : Name.segments name = s :: rest)
    (himport : Lookup.imported? p' u s = (Lookup.imported? p u s).map (Target.rename f))
    (hpackage : Lookup.samePackage? p' u s = (Lookup.samePackage? p u s).map (Target.rename f)) :
    p'.resolve (scope.rename f) name = renameAnswer f (p.resolve scope name) := by
  have hfirst := Lookup.resolveSimple_rename hu (hf _ u hu) himport hpackage
  rw [resolve_eq_follow hname, resolve_eq_follow hname, hfirst]
  exact follow_rename hp hf fun t ht => hp.standsIn_of_resolveSimple ht

end Project

end SourceModel
