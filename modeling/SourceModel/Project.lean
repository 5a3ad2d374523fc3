import SourceModel.Draft.Feed

/-!
Projects: several units, and an index of their declarations by qualified name. A unit is known by
its position.
-/

namespace SourceModel

structure Project where
  units : List SourceUnit
  /-- The qualified name of every declaration, each once. -/
  index : List (String × DeclId)

inductive LoadError where
  | duplicateType (name : String)
  | build (unit : Nat) (source : BuildError)
deriving DecidableEq, Repr

def LoadError.message : LoadError → String
  | .duplicateType name => "Duplicate type name: " ++ name
  | .build unit source => "compilation unit " ++ toString unit ++ ": " ++ source.message

/-- The first element that occurred before. -/
def firstRepeated? {α : Type} [BEq α] : List α → List α → Option α
  | _, [] => none
  | seen, a :: as => if seen.contains a then some a else firstRepeated? (a :: seen) as

namespace Project

/-- The declarations of a unit with their qualified names, depth first. -/
def entriesOf (u : SourceUnit) (unit : Nat) : List (String × DeclId) :=
  u.visit.map fun (id, _) => (u.qualifiedName id, ⟨unit, id⟩)

/-- The declarations of all units, in the order of the units. -/
def entries (units : List SourceUnit) : List (String × DeclId) :=
  units.zipIdx.flatMap fun (u, i) => entriesOf u i

/-- The project of the units, unless two declarations share a qualified name. -/
def ofUnits (units : List SourceUnit) : Except LoadError Project :=
  let index := entries units
  match firstRepeated? [] (index.map (·.1)) with
  | some name => .error (.duplicateType name)
  | none => .ok ⟨units, index⟩

/-- Builds sources numbered from `i`; the first that fails is reported. -/
def buildFrom (strict : Bool) (i : Nat) : List (List Event) → Except LoadError (List SourceUnit)
  | [] => .ok []
  | events :: rest =>
    match SourceUnit.ofEvents strict events with
    | .ok u => (buildFrom strict (i + 1) rest).map (u :: ·)
    | .error e => .error (.build i e)

/-- The project of the given sources. -/
def load (strict : Bool) (sources : List (List Event)) : Except LoadError Project := do
  ofUnits (← buildFrom strict 0 sources)

/-! ## Declarations -/

def unit? (p : Project) (unit : Nat) : Option SourceUnit :=
  p.units[unit]?

def decl? (p : Project) (id : DeclId) : Option Declaration :=
  (p.unit? id.unit).bind (·.decl? id.decl)

/-- The declaration with the given qualified name. -/
def findType? (p : Project) (qualifiedName : String) : Option DeclId :=
  p.index.lookup qualifiedName

def typeCount (p : Project) : Nat := p.index.length

def qualifiedName (p : Project) (id : DeclId) : String :=
  ((p.unit? id.unit).map (·.qualifiedName id.decl)).getD ""

/-- The declaration directly around a declaration. -/
def enclosing? (p : Project) (id : DeclId) : Option DeclId :=
  (p.decl? id).bind fun d =>
    match d.container with
    | .type parent => some ⟨id.unit, parent⟩
    | .unit => none

/-- All declarations, unit by unit and depth first. -/
def visit (p : Project) : List (DeclId × Declaration) :=
  p.units.zipIdx.flatMap fun (u, i) => u.visit.map fun (id, d) => (⟨i, id⟩, d)

/-- The positions of the units of a package. Units without a package form one too. -/
def unitsOf (p : Project) (package : Option String) : List (SourceUnit × Nat) :=
  p.units.zipIdx.filter fun (u, _) => u.package == package

end Project

end SourceModel
