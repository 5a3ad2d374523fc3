import SourceModel.Literal.Basic

/-!
What can be wrong with the events of a unit.
-/

namespace SourceModel

/-- What an event reports. -/
inductive Construct where
  | packageDeclaration
  | typeDeclaration
  | typeEnd
  | typeParameter
  | typeParameterBound
  | superclass
  | implementedInterface
  | fieldDeclaration
  | enumConstant
  | recordComponent
  | methodDeclaration
  | constructorDeclaration
  | formalParameter
  | memberEnd
deriving DecidableEq, Repr

def Construct.text : Construct → String
  | .packageDeclaration => "package declaration"
  | .typeDeclaration => "type declaration"
  | .typeEnd => "end of type declaration"
  | .typeParameter => "type parameter"
  | .typeParameterBound => "type parameter bound"
  | .superclass => "superclass"
  | .implementedInterface => "implemented interface"
  | .fieldDeclaration => "field declaration"
  | .enumConstant => "enum constant"
  | .recordComponent => "record component"
  | .methodDeclaration => "method declaration"
  | .constructorDeclaration => "constructor declaration"
  | .formalParameter => "formal parameter"
  | .memberEnd => "end of member declaration"

/-- Why a construct does not belong where it stands. -/
inductive Misplacement where
  | insideType
  | outsideType
  | insideMember
  | outsideMember
  | outsideClass
  | outsideEnum
  | outsideRecord
  | withoutConstructors
  | outsideParameterList
  | withoutTypeParameter
  | notNamedType
deriving DecidableEq, Repr

def Misplacement.text : Misplacement → String
  | .insideType => "inside a type"
  | .outsideType => "outside a type"
  | .insideMember => "inside a member"
  | .outsideMember => "outside a member"
  | .outsideClass => "outside a class"
  | .outsideEnum => "outside an enum"
  | .outsideRecord => "outside a record"
  | .withoutConstructors => "in an interface or annotation type"
  | .outsideParameterList => "outside a method or constructor"
  | .withoutTypeParameter => "without a type parameter"
  | .notNamedType => "that is not a class or interface type"

inductive BuildError where
  | unknownModifier (word : String)
  | unexpected (construct : Construct) (misplacement : Misplacement)
  | unclosedType (name : String)
  | danglingModifiers (count : Nat)
  | danglingAnnotations (names : List String)
  | literal (error : LiteralError)
deriving DecidableEq, Repr

def BuildError.message : BuildError → String
  | .unknownModifier word => "unknown modifier: " ++ word
  | .unexpected construct misplacement =>
    "unexpected " ++ construct.text ++ " " ++ misplacement.text
  | .unclosedType name => "type declaration not closed at end of unit: " ++ name
  | .danglingModifiers count => toString count ++ " modifier(s) not attached to any declaration"
  | .danglingAnnotations names =>
    "annotation(s) not attached to any declaration: " ++ String.intercalate ", " names
  | .literal error => error.message

end SourceModel
