import SourceModel.Expr.Basic
import SourceModel.Modifier

/-!
Declared types and their members.
-/

namespace SourceModel

/-- The kinds of declared types. -/
inductive Kind where
  | classType
  | interfaceType
  | enumType
  | recordType
  | annotationType
deriving DecidableEq, Repr

def Kind.keyword : Kind → String
  | .classType => "class"
  | .interfaceType => "interface"
  | .enumType => "enum"
  | .recordType => "record"
  | .annotationType => "annotation"

/-! ## Members -/

structure TypeParam where
  name : String
  annotations : List AnnotationUse
  bounds : List NamedType

structure Parameter where
  name : String
  modifiers : List Modifier
  annotations : List AnnotationUse
  ty : Ty
  varargs : Bool

structure Method where
  name : String
  modifiers : List Modifier
  annotations : List AnnotationUse
  returnType : Ty
  params : List Parameter

structure Constructor where
  modifiers : List Modifier
  annotations : List AnnotationUse
  params : List Parameter

structure Field where
  name : String
  modifiers : List Modifier
  annotations : List AnnotationUse
  ty : Ty
  initializer : Option Expr

structure EnumConstant where
  name : String
  annotations : List AnnotationUse

/-! ## Declarations -/

/-- The members that only some kinds have. -/
inductive Body where
  | classBody (superclass : Option NamedType) (constructors : List Constructor)
      (fields : List Field)
  | interfaceBody
  | enumBody (constants : List EnumConstant) (constructors : List Constructor)
      (fields : List Field)
  | recordBody (constructors : List Constructor) (fields : List Field)
  | annotationBody

namespace Body

def empty : Kind → Body
  | .classType => .classBody none [] []
  | .interfaceType => .interfaceBody
  | .enumType => .enumBody [] [] []
  | .recordType => .recordBody [] []
  | .annotationType => .annotationBody

def kind : Body → Kind
  | .classBody .. => .classType
  | .interfaceBody => .interfaceType
  | .enumBody .. => .enumType
  | .recordBody .. => .recordType
  | .annotationBody => .annotationType

@[simp] theorem kind_empty (k : Kind) : (empty k).kind = k := by
  cases k <;> rfl

def superclass : Body → Option NamedType
  | .classBody superclass _ _ => superclass
  | _ => none

def constructors : Body → List Constructor
  | .classBody _ cs _ | .enumBody _ cs _ | .recordBody cs _ => cs
  | .interfaceBody | .annotationBody => []

def fields : Body → List Field
  | .classBody _ _ fs | .enumBody _ _ fs | .recordBody _ fs => fs
  | .interfaceBody | .annotationBody => []

def constants : Body → List EnumConstant
  | .enumBody constants _ _ => constants
  | _ => []

/-- Interfaces and annotation types have no constructors. -/
def hasConstructors : Body → Bool
  | .classBody .. | .enumBody .. | .recordBody .. => true
  | .interfaceBody | .annotationBody => false

/-- The body with more fields; fields of interfaces and annotation types are not kept. -/
def addFields (more : List Field) : Body → Body
  | .classBody s cs fs => .classBody s cs (fs ++ more)
  | .enumBody ks cs fs => .enumBody ks cs (fs ++ more)
  | .recordBody cs fs => .recordBody cs (fs ++ more)
  | .interfaceBody => .interfaceBody
  | .annotationBody => .annotationBody

/-- The body with its constructors changed, where it has any. -/
def mapConstructors (f : List Constructor → List Constructor) : Body → Body
  | .classBody s cs fs => .classBody s (f cs) fs
  | .enumBody ks cs fs => .enumBody ks (f cs) fs
  | .recordBody cs fs => .recordBody (f cs) fs
  | .interfaceBody => .interfaceBody
  | .annotationBody => .annotationBody

@[simp] theorem kind_addFields (more : List Field) (b : Body) :
    (b.addFields more).kind = b.kind := by
  cases b <;> rfl

@[simp] theorem kind_mapConstructors (f : List Constructor → List Constructor) (b : Body) :
    (b.mapConstructors f).kind = b.kind := by
  cases b <;> rfl

end Body

/-- A declared type. Types nested in it are entries of the same table. -/
structure Declaration where
  name : String
  modifiers : List Modifier
  annotations : List AnnotationUse
  typeParams : List TypeParam
  interfaces : List NamedType
  methods : List Method
  body : Body
  container : Container
  nested : List Nat

namespace Declaration

def empty (kind : Kind) (name : String) (container : Container) : Declaration where
  name
  modifiers := []
  annotations := []
  typeParams := []
  interfaces := []
  methods := []
  body := .empty kind
  container
  nested := []

def kind (d : Declaration) : Kind := d.body.kind

def superclass (d : Declaration) : Option NamedType := d.body.superclass

def constructors (d : Declaration) : List Constructor := d.body.constructors

def fields (d : Declaration) : List Field := d.body.fields

def constants (d : Declaration) : List EnumConstant := d.body.constants

/-- Whether a member with the given modifiers is public. Members of interfaces and annotation
types are, unless they say otherwise. -/
def isPublicMember (d : Declaration) (modifiers : List Modifier) : Bool :=
  match d.kind with
  | .interfaceType | .annotationType =>
    !modifiers.contains .privateAccess && !modifiers.contains .protectedAccess
  | _ => modifiers.contains .publicAccess

end Declaration

end SourceModel
