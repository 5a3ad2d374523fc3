import SourceModel.Ty.Written

/-!
Expressions as they are written: flat sequences of leaves, with groups where the writer grouped
them. The parentheses around a group are tokens of their own.
-/

namespace SourceModel

mutual

inductive Leaf where
  /-- The text of a literal. -/
  | literal (text : String)
  | name (text : String)
  | token (text : String)
  /-- A constructor call, without the `new` before it. -/
  | creation (target : WrittenType) (args : List (List Leaf))
  | group (leaves : List Leaf)
  | array (elements : List (List Leaf))
  | annotationUse (use : WrittenAnnotationUse)
  /-- Code that is kept as it stands. -/
  | unknown (code : String)

structure WrittenAnnotationUse where
  name : String
  values : List WrittenValue

structure WrittenValue where
  name : String
  value : List Leaf

end

instance : Inhabited Leaf :=
  ⟨.unknown ""⟩

instance : Inhabited WrittenAnnotationUse :=
  ⟨⟨"", []⟩⟩

end SourceModel
