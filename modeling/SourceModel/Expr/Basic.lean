import SourceModel.Literal.Basic
import SourceModel.Ty.Basic

/-!
Values of annotations and initializers, as far as they can be told without evaluating code.
-/

namespace SourceModel

mutual

inductive Expr where
  /-- The elements of an array, or the items of a sequence that does not reduce to one value. -/
  | list (items : List Expr)
  | annotationUse (use : AnnotationUse)
  | literal (value : Literal)
  | creation (target : Ty) (args : List Expr)
  | name (text : String)
  | token (text : String)
  | unknown (code : String)

/-- An annotation remembers the container in which its name is looked up. -/
structure AnnotationUse where
  container : Container
  name : String
  values : List AnnotationValue

structure AnnotationValue where
  name : String
  value : Expr

end

instance : Inhabited Expr :=
  ⟨.list []⟩

namespace Expr

def isToken (text : String) : Expr → Bool
  | .token t => t == text
  | _ => false

def literal? : Expr → Option Literal
  | .literal l => some l
  | _ => none

def string? (e : Expr) : Option String :=
  e.literal?.bind (·.string?)

def name? : Expr → Option String
  | .name n => some n
  | _ => none

def annotationUse? : Expr → Option AnnotationUse
  | .annotationUse use => some use
  | _ => none

/-- The type that is created. -/
def created? : Expr → Option Ty
  | .creation target _ => some target
  | _ => none

/-- The part of the given number: an item of a list, an argument of a creation, or the value for an
element of an annotation. -/
def part? : Expr → Nat → Option Expr
  | .list items, i => items[i]?
  | .creation _ args, i => args[i]?
  | .annotationUse use, i => use.values[i]?.map (·.value)
  | _, _ => none

/-- What stands at the end of a path of parts. -/
def at? (e : Expr) : List Nat → Option Expr
  | [] => some e
  | i :: path => (e.part? i).bind (·.at? path)

end Expr

/-- The last segment of the name. -/
def AnnotationUse.simpleName (a : AnnotationUse) : String :=
  Name.simple a.name

/-- The value given for an element name, the first if there are several. -/
def AnnotationUse.value? (a : AnnotationUse) (name : String) : Option Expr :=
  (a.values.find? (·.name == name)).map (·.value)

mutual

/-- Equality of values: containers do not count. -/
def Expr.same : Expr → Expr → Bool
  | .list as, .list bs => Expr.sameList as bs
  | .annotationUse a, .annotationUse b => a.same b
  | .literal a, .literal b => a.sameValue b
  | .creation s as, .creation t bs => s.same t && Expr.sameList as bs
  | .name a, .name b => a == b
  | .token a, .token b => a == b
  | .unknown a, .unknown b => a == b
  | _, _ => false

def Expr.sameList : List Expr → List Expr → Bool
  | [], [] => true
  | a :: as, b :: bs => a.same b && Expr.sameList as bs
  | _, _ => false

def AnnotationUse.same : AnnotationUse → AnnotationUse → Bool
  | ⟨_, m, as⟩, ⟨_, n, bs⟩ => m == n && AnnotationValue.sameList as bs

def AnnotationValue.same : AnnotationValue → AnnotationValue → Bool
  | ⟨m, a⟩, ⟨n, b⟩ => m == n && a.same b

def AnnotationValue.sameList : List AnnotationValue → List AnnotationValue → Bool
  | [], [] => true
  | a :: as, b :: bs => a.same b && AnnotationValue.sameList as bs
  | _, _ => false

end

end SourceModel
