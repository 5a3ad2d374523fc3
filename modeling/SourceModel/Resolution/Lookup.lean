import SourceModel.CoreType
import SourceModel.Resolution.Target

/-!
Resolution of type names. A simple name goes through rules in a fixed order, and the first that
applies decides; a dotted name is resolved from the left, one nested type at a time.
-/

namespace SourceModel

/-! ## Rules for simple names -/

namespace Lookup

variable (p : Project) (u : SourceUnit) (scope : Scope) (name : String)

/-- A type parameter of the innermost declaration around the scope that has one of the name. -/
def typeParam? : Option Target :=
  (u.chain scope.container).findSome? fun (id, d) =>
    (d.typeParams.findIdx? (·.name == name)).map (.typeParam ⟨scope.unit, id⟩)

/-- The innermost declaration around the scope that has the name, or directly contains a type that
has it. -/
def enclosing? : Option Target :=
  ((u.chain scope.container).findSome? fun (id, d) =>
    if d.name == name then some id else u.findNested? id name).map
      fun id => .declared ⟨scope.unit, id⟩

/-- The type that an import names. -/
def imported? : Option Target :=
  (u.findImport? name).map fun i =>
    match p.findType? i.name with
    | some id => .declared id
    | none => .external i.name

/-- A top-level type of a unit in the same package, the unit itself among them. -/
def samePackage? : Option Target :=
  (p.unitsOf u.package).findSome? fun (v, i) =>
    (v.findTopLevel? name).map fun id => .declared ⟨i, id⟩

def core? : Option Target :=
  if isCoreType name then some (.external (Name.qualify (some coreNamespace) name)) else none

/-- A type outside the project: of the namespace that a wildcard imports, or of the package if
there is no wildcard. With several wildcards nobody can tell. -/
def outside : Except LookupError Target :=
  match u.wildcardImports with
  | [] => .ok (.external (Name.qualify u.package name))
  | [i] => .ok (.external (Name.qualify (some i.name) name))
  | is => .error (.ambiguous scope name (is.map (·.name)))

end Lookup

namespace Project

/-- The target of a name without dots. -/
def resolveSimple (p : Project) (scope : Scope) (name : String) : Except LookupError Target :=
  match p.unit? scope.unit with
  | none => .error (.unresolved scope name)
  | some u =>
    let found := Lookup.typeParam? u scope name <|> Lookup.enclosing? u scope name <|>
      Lookup.imported? p u name <|> Lookup.samePackage? p u name <|> Lookup.core? name
    match found with
    | some t => .ok t
    | none => Lookup.outside u scope name

/-! ## Dotted names -/

/-- The type of the given simple name directly inside a target. -/
def member? (p : Project) (simpleName : String) : Target → Option Target
  | .declared id =>
    ((p.unit? id.unit).bind fun u => u.findNested? id.decl simpleName).map
      fun inner => .declared ⟨id.unit, inner⟩
  | .typeParam _ _ => none
  | .external outer => some (.external (Name.qualify (some outer) simpleName))

/-- The target of the name with the given segments, the last segment first. A failure further left
is reported under the whole name. -/
def resolveReversed (p : Project) (scope : Scope) : List String → Except LookupError Target
  | [] => p.resolveSimple scope ""
  | [s] => p.resolveSimple scope s
  | s :: front =>
    let unresolved := .error (.unresolved scope (Name.join (s :: front).reverse))
    match p.resolveReversed scope front with
    | .ok t =>
      match p.member? s t with
      | some inner => .ok inner
      | none => unresolved
    | .error (.unresolved _ _) => unresolved
    | .error e => .error e

/-- The target of a simple or dotted name. -/
def resolve (p : Project) (scope : Scope) (name : String) : Except LookupError Target :=
  p.resolveReversed scope (Name.segments name).reverse

/-! ## References -/

/-- The target of a named type written in a unit. -/
def resolveType (p : Project) (unit : Nat) (ty : NamedType) : Except LookupError Target :=
  p.resolve ⟨unit, ty.container⟩ ty.dottedName

/-- The target of an annotation written in a unit. Only the last segment of its name counts. -/
def resolveAnnotation (p : Project) (unit : Nat) (use : AnnotationUse) :
    Except LookupError Target := do
  let scope : Scope := ⟨unit, use.container⟩
  let t ← p.resolve scope use.simpleName
  if t.mayAnnotate p then .ok t else .error (.notAnnotationType scope use.name (t.describe p))

end Project

end SourceModel
