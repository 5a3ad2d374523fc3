import SourceModel.Diagnostic
import SourceModel.Dump
import SourceModel.Property
import SourceModel.Rendering

/-!
Questions about a project, asked by place. Where nothing stands that the question could be about,
there is no answer.
-/

namespace SourceModel

namespace Project

/-! ## What stands at a place -/

def spotAt? (p : Project) (site : TypeSite) : Option Spot :=
  (p.decl? site.decl).bind fun d => (d.heldAt? site.slot).bind (·.at? site.path)

def namedTypeAt? (p : Project) (site : TypeSite) : Option NamedType :=
  (p.spotAt? site).bind (·.named?)

/-- The type at a place. Bounds, supertypes and qualifiers are named types, not types. -/
def typeAt? (p : Project) (site : TypeSite) : Option Ty :=
  (p.spotAt? site).bind fun
    | .type ty => some ty
    | .named _ => none

def annotationAt? (p : Project) (site : AnnotationSite) : Option AnnotationUse :=
  (p.decl? site.decl).bind (·.annotationAt? site.element site.index)

/-- The annotation that is the value at a place. -/
def annotationValueAt? (p : Project) (decl : DeclId) (site : ValueSite) : Option AnnotationUse :=
  (p.decl? decl).bind fun d => (d.valueAt? site).bind (·.annotationUse?)

def annotationsAt? (p : Project) (decl : DeclId) (element : Element) :
    Option (List AnnotationUse) :=
  (p.decl? decl).bind (·.annotationsAt? element)

end Project

/-! ## Questions -/

inductive Query where
  /-- What the reference at an address stands for. -/
  | target (address : Address)
  | canonicalName (site : TypeSite)
  | isBoolean (site : TypeSite)
  | isNumber (site : TypeSite)
  | isString (site : TypeSite)
  | isAnnotated (decl : DeclId) (element : Element) (qualifiedName : String)
  | annotationValue (decl : DeclId) (element : Element) (qualifiedName valueName : String)
  | isGetter (decl : DeclId) (method : Nat)
  | getterName (decl : DeclId) (field : Nat)
  | properties (decl : DeclId)
  /-- The text of a type with canonical names in it. -/
  | rendering (site : TypeSite)
  | checkUnit (unit : Nat)
  /-- A unit as a document, without what is remembered of its references. -/
  | dump (unit : Nat)

namespace Query

def Answer : Query → Type
  | .target _ => Except LookupError Target
  | .canonicalName _ => Except LookupError String
  | .isBoolean _ | .isNumber _ | .isString _ | .isGetter .. => Bool
  | .isAnnotated .. => Except LookupError Bool
  | .annotationValue .. => Except LookupError (Option Expr)
  | .getterName .. => String
  | .properties _ => Except PropertyError (List Property)
  | .rendering _ => Except RenderError String
  | .checkUnit _ => List Diagnostic
  | .dump _ => Document

/-- Asks about what stands at a place. -/
def about {α β : Type} (found : Option α) (ask : α → QueryM β) : QueryM (Option β) :=
  match found with
  | some a => some <$> ask a
  | none => return none

def run (p : Project) : (q : Query) → QueryM (Option q.Answer)
  | .target (.annotationUse site) => about (p.annotationAt? site) (p.targetOfAnnotation site)
  | .target (.annotationValue decl site) =>
    about (p.annotationValueAt? decl site) (p.targetOfValue decl site)
  | .target (.type site) => about (p.namedTypeAt? site) (p.targetOfType site)
  | .canonicalName site => about (p.namedTypeAt? site) (p.canonicalName site)
  | .isBoolean site => about (p.typeAt? site) (p.isBoolean site)
  | .isNumber site => about (p.typeAt? site) (p.isNumber site)
  | .isString site => about (p.typeAt? site) (p.isString site)
  | .isAnnotated decl element qualifiedName =>
    about (p.annotationsAt? decl element) fun uses =>
      Project.hasAnnotation p decl element uses qualifiedName
  | .annotationValue decl element qualifiedName valueName =>
    about (p.annotationsAt? decl element) fun uses =>
      p.annotationValue decl element uses qualifiedName valueName
  | .isGetter decl method =>
    about ((p.decl? decl).bind fun d => d.methods[method]?.map fun m => (d, m)) fun (d, m) =>
      p.isGetter decl d method m
  | .getterName decl field =>
    about ((p.decl? decl).bind fun d => d.fields[field]?) (p.getterName decl field)
  | .properties decl => about (p.decl? decl) (p.properties decl)
  | .rendering site =>
    about (p.typeAt? site) fun ty =>
      ((Rendering.qualified p site.decl site.slot).render site.path ty).run
  | .checkUnit unit => about (p.unit? unit) (p.checkUnit unit)
  | .dump unit => about (p.unit? unit) fun u => return u.dump

/-- What is remembered after some questions, asked one after the other of a project of which
nothing was remembered. -/
def remembered (p : Project) (history : List Query) : Memo :=
  history.foldl (fun m q => (q.run p m).2) .empty

end Query

end SourceModel
