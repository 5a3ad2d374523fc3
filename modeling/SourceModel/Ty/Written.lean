import SourceModel.Name

/-!
Types as they are written: dotted segments with type arguments, and arrays of them.
-/

namespace SourceModel

/-- The direction of a wildcard's bound. -/
inductive BoundKind where
  | extends
  | super
deriving DecidableEq, Repr

def BoundKind.keyword : BoundKind → String
  | .extends => "extends"
  | .super => "super"

mutual

inductive WrittenType where
  | named (segments : List Segment)
  | array (component : WrittenType) (dimension : Nat)

structure Segment where
  name : String
  args : List WrittenArg

inductive WrittenArg where
  | type (ty : WrittenType)
  | wildcard
  | bounded (kind : BoundKind) (bound : WrittenType)

end

namespace WrittenType

instance : Inhabited WrittenType :=
  ⟨.named []⟩

/-- The type of a dotted name, without type arguments. -/
def ofName (name : String) : WrittenType :=
  .named ((Name.segments name).map (⟨·, []⟩))

/-- The type with the type arguments of its last segment replaced; arrays have no segment. -/
def withArgs (ty : WrittenType) (args : List WrittenArg) : WrittenType :=
  match ty with
  | .named segments =>
    match segments.getLast? with
    | some last => .named (segments.dropLast ++ [{ last with args }])
    | none => ty
  | .array _ _ => ty

/-- The type with one more segment; arrays have no members. -/
def member (ty : WrittenType) (name : String) : WrittenType :=
  match ty with
  | .named segments => .named (segments ++ [⟨name, []⟩])
  | .array _ _ => ty

/-- An array of the given type; the dimensions of an array of arrays add up. -/
def arrayOf (component : WrittenType) (dimension : Nat) : WrittenType :=
  match component with
  | .array inner n => .array inner (n + dimension)
  | ty => .array ty dimension

end WrittenType

end SourceModel
