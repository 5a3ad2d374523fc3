import SourceModel.Draft.Error
import SourceModel.Draft.Event
import SourceModel.Expr.Reading

/-!
A unit under construction. Modifiers and annotations wait until a declaration takes them; open
types form a stack, and at most one method or constructor is open.

An event that is refused still leaves a draft behind: what it had taken is gone, and nothing else
has changed.
-/

namespace SourceModel

/-- The open member, by its number in the innermost open type. -/
inductive MemberSlot where
  | method (index : Nat)
  | constructor (index : Nat)
deriving DecidableEq, Repr

/-- The type parameter that a bound belongs to. Those of methods are not modelled. -/
inductive TypeParamSlot where
  | ofType (index : Nat)
  | ignored
deriving DecidableEq, Repr

structure Draft where
  unit : SourceUnit
  /-- The modifiers that wait for a declaration. -/
  modifiers : List Modifier
  /-- The annotations that wait for a declaration. -/
  annotations : List WrittenAnnotationUse
  /-- The open types, innermost first. -/
  openTypes : List Nat
  member : Option MemberSlot
  typeParam : Option TypeParamSlot

/-- Why an event was refused, and the draft that it leaves. -/
structure Refusal where
  error : BuildError
  draft : Draft

namespace Draft

def empty : Draft := ⟨.empty, [], [], [], none, none⟩

instance : Inhabited Draft := ⟨empty⟩

/-- The draft with nothing waiting. -/
def cleared (d : Draft) : Draft :=
  { d with modifiers := [], annotations := [] }

/-- What surrounds the next declaration. -/
def container (d : Draft) : Container :=
  match d.openTypes with
  | id :: _ => .type id
  | [] => .unit

def modifyDecl (d : Draft) (id : Nat) (f : Declaration → Declaration) : Draft :=
  { d with unit := d.unit.modifyDecl id f }

def modifyBody (d : Draft) (id : Nat) (f : Body → Body) : Draft :=
  d.modifyDecl id fun t => { t with body := f t.body }

/-- The body of an open type. -/
def bodyOf (d : Draft) (id : Nat) : Body :=
  ((d.unit.decl? id).map (·.body)).getD .interfaceBody

/-- Whether an open type has the member that the slot numbers. -/
def hasMember (d : Draft) (id : Nat) : MemberSlot → Bool
  | .method index => ((d.unit.decl? id).bind fun t => t.methods[index]?).isSome
  | .constructor index => (d.bodyOf id).constructors[index]?.isSome

/-- Whether an open type has a type parameter of the given number. -/
def hasTypeParam (d : Draft) (id index : Nat) : Bool :=
  ((d.unit.decl? id).bind fun t => t.typeParams[index]?).isSome

/-! ## Conditions -/

def refuse {α : Type} (d : Draft) (construct : Construct) (misplacement : Misplacement) :
    Except Refusal α :=
  .error ⟨.unexpected construct misplacement, d⟩

/-- What was read, or the refusal of the event that brought it. -/
def require {α : Type} (d : Draft) : Except LiteralError α → Except Refusal α
  | .ok a => .ok a
  | .error e => .error ⟨.literal e, d⟩

/-- The innermost open type. -/
def currentType (d : Draft) (construct : Construct) : Except Refusal Nat :=
  match d.openTypes with
  | id :: _ => .ok id
  | [] => d.refuse construct .outsideType

def requireNoMember (d : Draft) (construct : Construct) : Except Refusal Unit :=
  if d.member.isSome then d.refuse construct .insideMember else .ok ()

def requireNamed (d : Draft) (construct : Construct) : Ty → Except Refusal NamedType
  | .named ty => .ok ty
  | _ => d.refuse construct .notNamedType

end Draft

end SourceModel
