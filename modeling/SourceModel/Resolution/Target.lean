import SourceModel.Project

/-!
What a type name stands for, and why it may stand for nothing.
-/

namespace SourceModel

inductive Target where
  | declared (id : DeclId)
  | typeParam (owner : DeclId) (index : Nat)
  /-- A type outside the project, by its qualified name. -/
  | external (name : String)
deriving DecidableEq, Repr

namespace Target

/-- The name by which the target is known everywhere; type parameters have only their own. -/
def canonicalName (p : Project) : Target → String
  | .declared id => p.qualifiedName id
  | .typeParam owner index =>
    (((p.decl? owner).bind fun d => d.typeParams[index]?).map (·.name)).getD ""
  | .external name => name

def describe (p : Project) : Target → String
  | .declared id =>
    ((p.decl? id).map (·.kind.keyword)).getD "" ++ " " ++ p.qualifiedName id
  | .typeParam owner index => "type parameter " ++ (typeParam owner index).canonicalName p
  | .external name => name

/-- Whether the target may annotate. A type outside the project is taken to be able to. -/
def mayAnnotate (p : Project) : Target → Bool
  | .declared id => (p.decl? id).any (·.kind == .annotationType)
  | .typeParam _ _ => false
  | .external _ => true

def declared? : Target → Option DeclId
  | .declared id => some id
  | _ => none

def isExternal : Target → Bool
  | .external _ => true
  | _ => false

end Target

/-- Why a name, looked up in a scope, has no target. -/
inductive LookupError where
  | unresolved (scope : Scope) (name : String)
  /-- Each candidate is a namespace from which the name could come. -/
  | ambiguous (scope : Scope) (name : String) (candidates : List String)
  | notAnnotationType (scope : Scope) (name : String) (found : String)
deriving DecidableEq, Repr

namespace LookupError

def scope : LookupError → Scope
  | .unresolved scope _ | .ambiguous scope _ _ | .notAnnotationType scope _ _ => scope

def name : LookupError → String
  | .unresolved _ name | .ambiguous _ name _ | .notAnnotationType _ name _ => name

def message : LookupError → String
  | .unresolved _ name => "cannot resolve type: " ++ name
  | .ambiguous _ name candidates =>
    "ambiguous type name: " ++ name ++ " (wildcard imports: " ++
      String.intercalate ", " candidates ++ ")"
  | .notAnnotationType _ name found =>
    "invalid annotation type: " ++ name ++ " resolves to " ++ found

end LookupError

end SourceModel
