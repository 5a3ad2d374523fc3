import SourceModel.SourceUnit
import SourceModel.Ty.Occurrence

/-!
Where a declaration refers to other types, and the references found there. A reference is an
annotation on an element of the declaration, or a named type somewhere in one of its types.
-/

namespace SourceModel

/-- What can carry annotations: the declaration itself, or one of its parts by number. -/
inductive Element where
  | type
  | typeParam (index : Nat)
  | field (index : Nat)
  | constant (index : Nat)
  | constructor (index : Nat)
  | constructorParam (index param : Nat)
  | method (index : Nat)
  | methodParam (index param : Nat)
deriving DecidableEq, Repr

/-- Where a declaration holds a type. -/
inductive Slot where
  | bound (typeParam index : Nat)
  | superclass
  | interface (index : Nat)
  | field (index : Nat)
  | constructorParam (index param : Nat)
  | methodReturn (index : Nat)
  | methodParam (index param : Nat)
deriving DecidableEq, Repr

/-- Where a declaration holds a value. -/
inductive ValueRoot where
  | initializer (field : Nat)
  /-- The value of the given number of an annotation. -/
  | annotationValue (element : Element) (index value : Nat)
deriving DecidableEq, Repr

/-- The place of a value in a declaration: where it is held, and the parts that lead to it. -/
structure ValueSite where
  root : ValueRoot
  path : List Nat
deriving DecidableEq, Repr

/-- Where a type is held: by the declaration itself, or by a value that creates an object of it. -/
inductive TypeSlot where
  | declared (slot : Slot)
  | created (site : ValueSite)
deriving DecidableEq, Repr

instance : Coe Slot TypeSlot :=
  ⟨.declared⟩

/-- The place of a type in a project. -/
structure TypeSite where
  decl : DeclId
  slot : TypeSlot
  path : Path
deriving DecidableEq, Repr

/-- The place of an annotation in a project. -/
structure AnnotationSite where
  decl : DeclId
  element : Element
  index : Nat
deriving DecidableEq, Repr

namespace Declaration

/-- The annotations of an element; `none` if there is no such element. -/
def annotationsAt? (d : Declaration) : Element → Option (List AnnotationUse)
  | .type => some d.annotations
  | .typeParam i => d.typeParams[i]?.map (·.annotations)
  | .field i => d.fields[i]?.map (·.annotations)
  | .constant i => d.constants[i]?.map (·.annotations)
  | .constructor i => d.constructors[i]?.map (·.annotations)
  | .constructorParam i j => d.constructors[i]?.bind fun c => c.params[j]?.map (·.annotations)
  | .method i => d.methods[i]?.map (·.annotations)
  | .methodParam i j => d.methods[i]?.bind fun m => m.params[j]?.map (·.annotations)

/-- What a slot holds. Bounds and supertypes are named types by their nature. -/
def spotAt? (d : Declaration) : Slot → Option Spot
  | .bound i j => d.typeParams[i]?.bind fun p => p.bounds[j]?.map .named
  | .superclass => d.superclass.map .named
  | .interface i => d.interfaces[i]?.map .named
  | .field i => d.fields[i]?.map fun f => .type f.ty
  | .constructorParam i j => d.constructors[i]?.bind fun c => c.params[j]?.map fun p => .type p.ty
  | .methodReturn i => d.methods[i]?.map fun m => .type m.returnType
  | .methodParam i j => d.methods[i]?.bind fun m => m.params[j]?.map fun p => .type p.ty

/-- The annotation of the given number on an element. -/
def annotationAt? (d : Declaration) (element : Element) (index : Nat) : Option AnnotationUse :=
  (d.annotationsAt? element).bind (·[index]?)

def rootAt? (d : Declaration) : ValueRoot → Option Expr
  | .initializer i => d.fields[i]?.bind (·.initializer)
  | .annotationValue element i j =>
    (d.annotationAt? element i).bind fun use => use.values[j]?.map (·.value)

def valueAt? (d : Declaration) (site : ValueSite) : Option Expr :=
  (d.rootAt? site.root).bind (·.at? site.path)

def heldAt? (d : Declaration) : TypeSlot → Option Spot
  | .declared slot => d.spotAt? slot
  | .created site => (d.valueAt? site).bind fun e => e.created?.map .type

end Declaration

/-! ## References -/

/-- A reference of a declaration, with its place. -/
inductive Reference where
  | annotationUse (element : Element) (index : Nat) (use : AnnotationUse)
  | type (slot : Slot) (occurrence : Occurrence)

namespace Reference

def ofAnnotations (element : Element) (uses : List AnnotationUse) : List Reference :=
  uses.zipIdx.map fun (use, i) => .annotationUse element i use

def ofSpot (slot : Slot) (spot : Spot) : List Reference :=
  spot.occurrences.map (.type slot)

/-- The references of numbered parts, one part after the other. -/
def ofParts {α : Type} (parts : List α) (f : α → Nat → List Reference) : List Reference :=
  parts.zipIdx.flatMap fun (a, i) => f a i

end Reference

open Reference in
/-- The references of a declaration: of its head, then of its fields, constants, constructors and
methods; the annotations of a part come before its types. -/
def Declaration.references (d : Declaration) : List Reference :=
  ofAnnotations .type d.annotations ++
  ofParts d.typeParams (fun p i =>
    ofAnnotations (.typeParam i) p.annotations ++
    ofParts p.bounds fun b j => ofSpot (.bound i j) (.named b)) ++
  d.superclass.toList.flatMap (fun t => ofSpot .superclass (.named t)) ++
  ofParts d.interfaces (fun t i => ofSpot (.interface i) (.named t)) ++
  ofParts d.fields (fun f i =>
    ofAnnotations (.field i) f.annotations ++ ofSpot (.field i) (.type f.ty)) ++
  ofParts d.constants (fun c i => ofAnnotations (.constant i) c.annotations) ++
  ofParts d.constructors (fun c i =>
    ofAnnotations (.constructor i) c.annotations ++
    ofParts c.params fun p j =>
      ofAnnotations (.constructorParam i j) p.annotations ++
      ofSpot (.constructorParam i j) (.type p.ty)) ++
  ofParts d.methods fun m i =>
    ofAnnotations (.method i) m.annotations ++
    ofSpot (.methodReturn i) (.type m.returnType) ++
    ofParts m.params fun p j =>
      ofAnnotations (.methodParam i j) p.annotations ++ ofSpot (.methodParam i j) (.type p.ty)

end SourceModel
