import SourceModel.Expr.Leaf
import SourceModel.SourceUnit

/-!
What a parser reports about one source unit, in source order.
-/

namespace SourceModel

/-- One name of a field declaration, with its own brackets and initializer. -/
structure Declarator where
  name : String
  dimension : Nat
  initializer : Option (List Leaf)

inductive Event where
  | package (name : String)
  | importName (name : String) (kind : ImportKind)
  /-- Imports of members are not modelled. -/
  | importStatic (name : String) (wildcard : Bool)
  | modifier (word : String)
  | annotate (use : WrittenAnnotationUse)
  | enterType (kind : Kind) (name : String)
  | exitType
  | typeParam (name : String)
  | typeParamBound (ty : WrittenType)
  | superclass (ty : WrittenType)
  | implement (ty : WrittenType)
  | field (ty : WrittenType) (declarators : List Declarator)
  | enumConstant (name : String)
  | recordComponent (name : String) (ty : WrittenType)
  | enterMethod (name : String) (returnType : WrittenType)
  | enterConstructor
  | parameter (name : String) (ty : WrittenType) (varargs : Bool)
  | exitMember

end SourceModel
