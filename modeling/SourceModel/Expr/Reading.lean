import SourceModel.Expr.Leaf
import SourceModel.Expr.Reduction
import SourceModel.Literal.Reader

/-!
Expressions and annotations from their leaves. Only the text of a literal can be at fault; the
first such text, from left to right, is reported.
-/

namespace SourceModel

mutual

/-- The items of one leaf. A group that does not reduce to one value leaves its items in place. -/
def Leaf.items (container : Container) : Leaf → Except LiteralError (List Expr)
  | .literal text => do return [.literal (← Literal.read text)]
  | .name text => .ok [.name text]
  | .token text => .ok [.token text]
  | .creation target args => do
    return [.creation (Ty.ofWritten container target) (← Leaf.values container args)]
  | .group leaves => do return Expr.reduce (← Leaf.itemsOfList container leaves)
  | .array elements => do return [.list (← Leaf.values container elements)]
  | .annotationUse a => do return [.annotationUse (← AnnotationUse.ofWritten container a)]
  | .unknown code => .ok [.unknown code]

/-- The items of several leaves, one after the other. -/
def Leaf.itemsOfList (container : Container) : List Leaf → Except LiteralError (List Expr)
  | [] => .ok []
  | l :: ls => do
    let first ← Leaf.items container l
    return first ++ (← Leaf.itemsOfList container ls)

/-- The value of each sequence. -/
def Leaf.values (container : Container) : List (List Leaf) → Except LiteralError (List Expr)
  | [] => .ok []
  | leaves :: rest => do
    let items ← Leaf.itemsOfList container leaves
    return Expr.ofSequence items :: (← Leaf.values container rest)

/-- The annotation that is written in the given container. -/
def AnnotationUse.ofWritten (container : Container) :
    WrittenAnnotationUse → Except LiteralError AnnotationUse
  | ⟨name, values⟩ => do return ⟨container, name, ← AnnotationValue.ofWrittenList container values⟩

def AnnotationValue.ofWrittenList (container : Container) :
    List WrittenValue → Except LiteralError (List AnnotationValue)
  | [] => .ok []
  | ⟨name, leaves⟩ :: rest => do
    let items ← Leaf.itemsOfList container leaves
    return ⟨name, Expr.ofSequence items⟩ :: (← AnnotationValue.ofWrittenList container rest)

end

/-- The value of the leaves of an expression written in the given container. -/
def Expr.ofLeaves (container : Container) (leaves : List Leaf) : Except LiteralError Expr :=
  (Leaf.itemsOfList container leaves).map Expr.ofSequence

/-- The annotations that are written in the given container. -/
def AnnotationUse.ofWrittenList (container : Container) :
    List WrittenAnnotationUse → Except LiteralError (List AnnotationUse)
  | [] => .ok []
  | a :: as => do
    let first ← AnnotationUse.ofWritten container a
    return first :: (← AnnotationUse.ofWrittenList container as)

end SourceModel
