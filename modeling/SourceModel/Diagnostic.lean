import SourceModel.Resolution.Memo

/-!
Diagnostics: reports of single findings, and the check of a whole unit.
-/

namespace SourceModel

inductive Severity where
  | error
  | warning
deriving DecidableEq, Repr

structure Diagnostic where
  scope : Scope
  /-- The name of what the finding is about. -/
  location : String
  severity : Severity
  code : Option String
  message : String
deriving DecidableEq, Repr

def LookupError.code : LookupError → String
  | .unresolved .. => "E0001"
  | .ambiguous .. => "E0002"
  | .notAnnotationType .. => "E0003"

def Diagnostic.ofLookupError (location : String) (e : LookupError) : Diagnostic :=
  ⟨e.scope, location, .error, some e.code, e.message⟩

/-! ## Reports -/

/-- Diagnostics in the order in which they were found. -/
structure Report where
  diagnostics : List Diagnostic
deriving DecidableEq, Repr

namespace Report

def empty : Report := ⟨[]⟩

def add (r : Report) (d : Diagnostic) : Report :=
  ⟨r.diagnostics ++ [d]⟩

def forUnit (r : Report) (unit : Nat) : List Diagnostic :=
  r.diagnostics.filter (·.scope.unit == unit)

def count (r : Report) (severity : Severity) : Nat :=
  (r.diagnostics.filter (·.severity == severity)).length

def hasErrors (r : Report) : Bool :=
  r.diagnostics.any (·.severity == .error)

/-- The diagnostics, and the report without them. -/
def take (r : Report) : List Diagnostic × Report :=
  (r.diagnostics, empty)

end Report

/-! ## The check of a unit -/

/-- The warning that an import is of no use, since an earlier one has its simple name. -/
def Diagnostic.shadowed (unit : Nat) (location : String) (hidden winner : Import) : Diagnostic :=
  ⟨⟨unit, .unit⟩, location, .warning, some "W0001",
    "import " ++ hidden.name ++ " is shadowed by import " ++ winner.name⟩

/-- Warnings for the imports that one before them, in `earlier` or in the list, shadows. -/
def shadowWarnings (unit : Nat) (location : String) : List Import → List Import → List Diagnostic
  | _, [] => []
  | earlier, i :: is =>
    let winner? := earlier.find? fun e => Name.simple e.name == Name.simple i.name
    (winner?.map fun w => Diagnostic.shadowed unit location i w).toList ++
      shadowWarnings unit location (earlier ++ [i]) is

namespace Project

/-- The target of a reference of a declaration. -/
def targetOf (p : Project) (id : DeclId) : Reference → QueryM (Except LookupError Target)
  | .annotationUse element i use => p.targetOfAnnotation ⟨id, element, i⟩ use
  | .type slot o => p.targetOfType ⟨id, slot, o.path⟩ o.ty

/-- An error for each reference that has no target. -/
def checkReferences (p : Project) (id : DeclId) (location : String) :
    List Reference → QueryM (List Diagnostic)
  | [] => return []
  | r :: rs => do
    match ← p.targetOf id r with
    | .ok _ => p.checkReferences id location rs
    | .error e => return .ofLookupError location e :: (← p.checkReferences id location rs)

def checkDecls (p : Project) (u : SourceUnit) (unit : Nat) :
    List (Nat × Declaration) → QueryM (List Diagnostic)
  | [] => return []
  | (id, d) :: rest => do
    let here ← p.checkReferences ⟨unit, id⟩ (u.qualifiedName id) d.references
    return here ++ (← p.checkDecls u unit rest)

/-- The findings of the unit at a position: shadowed imports, then references without target. -/
def checkUnit (p : Project) (unit : Nat) (u : SourceUnit) : QueryM (List Diagnostic) := do
  let warnings := shadowWarnings unit (u.containerName .unit) [] u.singleImports
  return warnings ++ (← p.checkDecls u unit u.visit)

/-- The findings of units numbered from `i`. -/
def checkUnits (p : Project) : Nat → List SourceUnit → QueryM (List Diagnostic)
  | _, [] => return []
  | i, u :: us => do
    let here ← p.checkUnit i u
    return here ++ (← p.checkUnits (i + 1) us)

def check (p : Project) : QueryM (List Diagnostic) :=
  p.checkUnits 0 p.units

end Project

end SourceModel
