import SourceModel.Reference
import SourceModel.Resolution.Lookup

/-!
Questions about the references of a project. The target of a reference is remembered once it has
been found, so that it is looked up only once; failures are not remembered.
-/

namespace SourceModel

/-- The place of a reference in a project. -/
inductive Address where
  | annotationUse (site : AnnotationSite)
  /-- An annotation that is itself a value, or part of one. -/
  | annotationValue (decl : DeclId) (site : ValueSite)
  | type (site : TypeSite)
deriving DecidableEq, Repr

/-- The targets found so far. -/
structure Memo where
  cells : List (Address × Target)

namespace Memo

def empty : Memo := ⟨[]⟩

def get? (m : Memo) (a : Address) : Option Target :=
  m.cells.lookup a

def insert (m : Memo) (a : Address) (t : Target) : Memo :=
  ⟨(a, t) :: m.cells⟩

@[simp] theorem get?_insert (m : Memo) (a b : Address) (t : Target) :
    (m.insert a t).get? b = if b = a then some t else m.get? b := by
  by_cases h : b = a
  · simp [get?, insert, h]
  · simp [get?, insert, List.lookup_cons, beq_eq_false_iff_ne.2 h, h]

end Memo

/-- Questions that may fill the memo. -/
abbrev QueryM := StateM Memo

/-- The target remembered for the address, or else the given answer, which is then remembered. -/
def consult (a : Address) (answer : Except LookupError Target) :
    QueryM (Except LookupError Target) := fun m =>
  match m.get? a with
  | some t => (.ok t, m)
  | none =>
    match answer with
    | .ok t => (.ok t, m.insert a t)
    | .error e => (.error e, m)

namespace Project

/-! ## Types -/

def targetOfType (p : Project) (site : TypeSite) (ty : NamedType) :
    QueryM (Except LookupError Target) :=
  consult (.type site) (p.resolveType site.decl.unit ty)

def canonicalName (p : Project) (site : TypeSite) (ty : NamedType) :
    QueryM (Except LookupError String) := do
  return (← p.targetOfType site ty).map (·.canonicalName p)

/-- The primitive type that a type is or boxes. -/
def unboxed? (p : Project) (site : TypeSite) : Ty → QueryM (Option Primitive)
  | .primitive q => return some q
  | .named ty => do return (← p.canonicalName site ty).toOption.bind Primitive.ofBoxed?
  | .array _ _ => return none

def isBoolean (p : Project) (site : TypeSite) (ty : Ty) : QueryM Bool := do
  return (← p.unboxed? site ty) == some .boolean

def isNumber (p : Project) (site : TypeSite) (ty : Ty) : QueryM Bool := do
  return (← p.unboxed? site ty).any (·.isNumeric)

def isString (p : Project) (site : TypeSite) : Ty → QueryM Bool
  | .named ty => do
    match ← p.canonicalName site ty with
    | .ok name => return name == "java.lang.String"
    | .error _ => return false
  | _ => return false

/-! ## Annotations -/

def targetOfAnnotation (p : Project) (site : AnnotationSite) (use : AnnotationUse) :
    QueryM (Except LookupError Target) :=
  consult (.annotationUse site) (p.resolveAnnotation site.decl.unit use)

def targetOfValue (p : Project) (decl : DeclId) (site : ValueSite) (use : AnnotationUse) :
    QueryM (Except LookupError Target) :=
  consult (.annotationValue decl site) (p.resolveAnnotation decl.unit use)

/-- The first annotation, in a list numbered from `i`, whose canonical name is the given one. An
annotation before it that does not resolve is an error. -/
def findAnnotation (p : Project) (decl : DeclId) (element : Element) (qualifiedName : String) :
    Nat → List AnnotationUse → QueryM (Except LookupError (Option AnnotationUse))
  | _, [] => return .ok none
  | i, use :: rest => do
    match ← p.targetOfAnnotation ⟨decl, element, i⟩ use with
    | .ok t =>
      if t.canonicalName p == qualifiedName then return .ok (some use)
      else p.findAnnotation decl element qualifiedName (i + 1) rest
    | .error e => return .error e

/-- Whether one of the annotations of an element has the given canonical name. -/
def hasAnnotation (p : Project) (decl : DeclId) (element : Element) (uses : List AnnotationUse)
    (qualifiedName : String) : QueryM (Except LookupError Bool) := do
  return (← p.findAnnotation decl element qualifiedName 0 uses).map (·.isSome)

/-- The value that the annotation of the given canonical name gives for an element name. -/
def annotationValue (p : Project) (decl : DeclId) (element : Element) (uses : List AnnotationUse)
    (qualifiedName valueName : String) : QueryM (Except LookupError (Option Expr)) := do
  return (← p.findAnnotation decl element qualifiedName 0 uses).map
    (·.bind (·.value? valueName))

end Project

end SourceModel
