import SourceModel.Primitive
import SourceModel.Scope
import SourceModel.Ty.Written

/-!
Types as declarations use them. A named type remembers the container it was written in, from which
its name is looked up.
-/

namespace SourceModel

mutual

inductive Ty where
  | primitive (p : Primitive)
  | named (ty : NamedType)
  | array (component : Ty) (dimension : Nat)

/-- A reference to a declared type. The segments before the last are the qualifier. -/
structure NamedType where
  container : Container
  qualifier : Option NamedType
  name : String
  args : List TyArg

inductive TyArg where
  | type (ty : Ty)
  | wildcard
  | bounded (kind : BoundKind) (bound : Ty)

end

instance : Inhabited Ty :=
  ⟨.primitive .void⟩

/-! ## From written types -/

/-- The type with some dimensions more. -/
def Ty.arrayOf (ty : Ty) (dimension : Nat) : Ty :=
  if dimension = 0 then ty
  else
    match ty with
    | .array component n => .array component (n + dimension)
    | ty => .array ty dimension

/-- The primitive type that a lone segment without type arguments names. -/
def Segment.primitive? : List Segment → Option Primitive
  | [⟨name, []⟩] => Primitive.ofKeyword? name
  | _ => none

mutual

/-- The type that is written in the given container. -/
def Ty.ofWritten (container : Container) : WrittenType → Ty
  | .named segments =>
    match Segment.primitive? segments with
    | some p => .primitive p
    | none => .named ((NamedType.ofSegments container none segments).getD ⟨container, none, "", []⟩)
  | .array component dimension => (Ty.ofWritten container component).arrayOf dimension

/-- The named type of the segments after a qualifier; without segments it is the qualifier. -/
def NamedType.ofSegments (container : Container) (qualifier : Option NamedType) :
    List Segment → Option NamedType
  | [] => qualifier
  | ⟨name, args⟩ :: rest =>
    let ty : NamedType := ⟨container, qualifier, name, TyArg.ofWrittenList container args⟩
    NamedType.ofSegments container (some ty) rest

def TyArg.ofWritten (container : Container) : WrittenArg → TyArg
  | .type ty => .type (Ty.ofWritten container ty)
  | .wildcard => .wildcard
  | .bounded kind bound => .bounded kind (Ty.ofWritten container bound)

def TyArg.ofWrittenList (container : Container) : List WrittenArg → List TyArg
  | [] => []
  | a :: as => TyArg.ofWritten container a :: TyArg.ofWrittenList container as

end

/-! ## Names and display -/

/-- As many pairs of brackets as there are dimensions. -/
def brackets (dimension : Nat) : String :=
  String.join (List.replicate dimension "[]")

/-- The segments of the name with dots between them, without type arguments. -/
def NamedType.dottedName : NamedType → String
  | ⟨_, none, name, _⟩ => name
  | ⟨_, some q, name, _⟩ => q.dottedName ++ "." ++ name

/-- The name without type arguments, with the brackets of an array. -/
def Ty.name : Ty → String
  | .primitive p => p.keyword
  | .named ty => ty.dottedName
  | .array component dimension => component.name ++ brackets dimension

/-- Texts of type arguments between angle brackets; nothing if there are none. -/
def angleBrackets : List String → String
  | [] => ""
  | texts => "<" ++ String.intercalate ", " texts ++ ">"

mutual

/-- The type as it would be written. -/
def Ty.display : Ty → String
  | .primitive p => p.keyword
  | .named ty => ty.display
  | .array component dimension => component.display ++ brackets dimension

def NamedType.display : NamedType → String
  | ⟨_, none, name, args⟩ => name ++ angleBrackets (TyArg.displayList args)
  | ⟨_, some q, name, args⟩ => q.display ++ "." ++ name ++ angleBrackets (TyArg.displayList args)

def TyArg.display : TyArg → String
  | .type ty => ty.display
  | .wildcard => "?"
  | .bounded kind bound => "? " ++ kind.keyword ++ " " ++ bound.display

def TyArg.displayList : List TyArg → List String
  | [] => []
  | a :: as => a.display :: TyArg.displayList as

end

/-! ## Shape -/

def Ty.isVoid : Ty → Bool
  | .primitive .void => true
  | _ => false

def Ty.primitive? : Ty → Option Primitive
  | .primitive p => some p
  | _ => none

def Ty.named? : Ty → Option NamedType
  | .named ty => some ty
  | _ => none

mutual

/-- Equality of types as written: containers do not count. -/
def Ty.same : Ty → Ty → Bool
  | .primitive p, .primitive q => p == q
  | .named s, .named t => s.same t
  | .array s m, .array t n => s.same t && m == n
  | _, _ => false

def NamedType.same : NamedType → NamedType → Bool
  | ⟨_, none, m, as⟩, ⟨_, none, n, bs⟩ => m == n && TyArg.sameList as bs
  | ⟨_, some p, m, as⟩, ⟨_, some q, n, bs⟩ => p.same q && m == n && TyArg.sameList as bs
  | _, _ => false

def TyArg.same : TyArg → TyArg → Bool
  | .type s, .type t => s.same t
  | .wildcard, .wildcard => true
  | .bounded j s, .bounded k t => j == k && s.same t
  | _, _ => false

def TyArg.sameList : List TyArg → List TyArg → Bool
  | [], [] => true
  | a :: as, b :: bs => a.same b && TyArg.sameList as bs
  | _, _ => false

end

end SourceModel
