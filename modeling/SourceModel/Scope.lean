/-!
Positions in a project: units, the declarations of a unit, and the scopes in which names are
looked up.
-/

namespace SourceModel

/-- A declaration of a project: the position of its unit in the project, and its own position in
the table of the unit. -/
structure DeclId where
  unit : Nat
  decl : Nat
deriving DecidableEq, Repr, Ord

/-- What directly surrounds a position in a unit: the unit itself or a declared type. -/
inductive Container where
  | unit
  | type (decl : Nat)
deriving DecidableEq, Repr, Inhabited

/-- The place in a project from which a name is looked up. -/
structure Scope where
  unit : Nat
  container : Container
deriving DecidableEq, Repr

/-! ## Texts -/

/-- The short text of a unit's position. -/
def unitLabel (unit : Nat) : String :=
  "unit#" ++ toString unit

namespace DeclId

/-- The full text of the unit's position. -/
def unitText (d : DeclId) : String :=
  "UnitId(" ++ toString d.unit ++ ")"

/-- The full text of the position in the table. -/
def declText (d : DeclId) : String :=
  "LocalDefId(" ++ toString d.decl ++ ")"

def text (d : DeclId) : String :=
  "DeclId(" ++ d.unitText ++ ":" ++ toString d.decl ++ ")"

end DeclId

end SourceModel
