import SourceModel.Draft.Feed

/-!
When an event is accepted, and what it does then. For each operation there is one lemma that says
for which drafts it succeeds and with which result, and one that says what its refusal leaves: the
draft itself, less its share of what waited if it got as far as to take it.
-/

namespace SourceModel

section Bind

variable {ε α β : Type} {x : Except ε α} {f : α → Except ε β}

theorem bind_eq_ok_iff {b : β} : (x >>= f) = .ok b ↔ ∃ a, x = .ok a ∧ f a = .ok b := by
  cases x <;> simp [bind, Except.bind]

theorem map_eq_ok_iff {g : α → β} {b : β} : g <$> x = .ok b ↔ ∃ a, x = .ok a ∧ g a = b := by
  cases x <;> simp [Functor.map, Except.map]

theorem pure_eq_ok_iff {a b : α} : (pure a : Except ε α) = .ok b ↔ a = b := by
  simp [pure, Except.pure]

theorem toOption_eq_some_iff {a : α} : x.toOption = some a ↔ x = .ok a := by
  cases x <;> simp [Except.toOption]

end Bind

namespace Draft

variable {d e : Draft} {construct : Construct}

/-! ## Conditions -/

theorem currentType_eq_ok_iff {id : Nat} :
    d.currentType construct = .ok id ↔ d.openTypes.head? = some id := by
  unfold currentType
  cases d.openTypes <;> simp [refuse]

theorem requireNoMember_eq_ok_iff {u : Unit} :
    d.requireNoMember construct = .ok u ↔ d.member = none := by
  unfold requireNoMember
  cases d.member <;> simp [refuse]

theorem require_eq_ok_iff {α : Type} {x : Except LiteralError α} {a : α} :
    d.require x = .ok a ↔ x = .ok a := by
  cases x <;> simp [require]

theorem requireNamed_eq_ok_iff {ty : Ty} {n : NamedType} :
    d.requireNamed construct ty = .ok n ↔ ty = .named n := by
  cases ty <;> simp [requireNamed, refuse]

theorem refuse_eq_ok_iff {α : Type} {m : Misplacement} {a : α} :
    d.refuse construct m = .ok a ↔ False := by
  simp [refuse]

theorem ite_refuse_eq_ok_iff {α : Type} {c : Prop} [Decidable c] {x : Except Refusal α}
    {m : Misplacement} {a : α} :
    (if c then x else d.refuse construct m) = .ok a ↔ c ∧ x = .ok a := by
  split <;> simp [refuse, *]

/-! ## Types -/

theorem enterType_eq_ok_iff {kind : Kind} {name : String} :
    d.enterType kind name = .ok e ↔ d.member = none ∧ ∃ annotations,
      AnnotationUse.ofWrittenList (.type d.unit.decls.length) d.annotations = .ok annotations ∧
      { d.cleared with
        unit := d.unit.addDecl { Declaration.empty kind name d.container with
          modifiers := d.modifiers, annotations }
        openTypes := d.unit.decls.length :: d.openTypes
        typeParam := none } = e := by
  simp only [enterType, bind_eq_ok_iff, pure_eq_ok_iff, requireNoMember_eq_ok_iff,
    require_eq_ok_iff, exists_const]

theorem exitType_eq_ok_iff :
    d.exitType = .ok e ↔ d.member = none ∧ ∃ id, d.openTypes.head? = some id ∧
      { d with openTypes := d.openTypes.tail, typeParam := none } = e := by
  simp only [exitType, bind_eq_ok_iff, pure_eq_ok_iff, requireNoMember_eq_ok_iff,
    currentType_eq_ok_iff, exists_const]

theorem addTypeParam_eq_ok_iff {name : String} :
    d.addTypeParam name = .ok e ↔ ∃ id, d.openTypes.head? = some id ∧ ∃ annotations,
      AnnotationUse.ofWrittenList (.type id) d.annotations = .ok annotations ∧
      (if d.member.isSome then { d with annotations := [], typeParam := some .ignored }
        else { ({ d with annotations := [] } : Draft).modifyDecl id fun t =>
            { t with typeParams := t.typeParams ++ [⟨name, annotations, []⟩] } with
          typeParam := some (.ofType (((d.unit.decl? id).map (·.typeParams.length)).getD 0)) }) =
        e := by
  simp only [addTypeParam, bind_eq_ok_iff, currentType_eq_ok_iff, require_eq_ok_iff]
  cases d.member <;> simp [pure_eq_ok_iff]

theorem addTypeParamBound_eq_ok_iff {ty : WrittenType} :
    d.addTypeParamBound ty = .ok e ↔ ∃ id, d.openTypes.head? = some id ∧
      (d.typeParam = some .ignored ∧ d = e ∨
        ∃ index, d.typeParam = some (.ofType index) ∧ ∃ bound,
          Ty.ofWritten (.type id) ty = .named bound ∧ d.hasTypeParam id index ∧
          (d.modifyDecl id fun t => { t with typeParams := t.typeParams.modify index fun p =>
            { p with bounds := p.bounds ++ [bound] } }) = e) := by
  simp only [addTypeParamBound, bind_eq_ok_iff, currentType_eq_ok_iff]
  rcases d.typeParam with _ | _ | _ <;>
    simp [pure_eq_ok_iff, bind_eq_ok_iff, requireNamed_eq_ok_iff, refuse_eq_ok_iff,
      ite_refuse_eq_ok_iff]

/-- The container around a declaration. -/
def around (d : Draft) (id : Nat) : Container :=
  ((d.unit.decl? id).map (·.container)).getD .unit

theorem bodyOf_eq {id : Nat} {x : Declaration} (h : d.unit.decl? id = some x) :
    d.bodyOf id = x.body := by
  unfold bodyOf
  rw [h]
  rfl

theorem around_eq {id : Nat} {x : Declaration} (h : d.unit.decl? id = some x) :
    d.around id = x.container := by
  unfold around
  rw [h]
  rfl

theorem supertype_eq_ok_iff {id : Nat} {ty : WrittenType} {n : NamedType} :
    d.supertype construct id ty = .ok n ↔ Ty.ofWritten (d.around id) ty = .named n := by
  simp only [supertype, requireNamed_eq_ok_iff, around]

theorem setSuperclass_eq_ok_iff {ty : WrittenType} :
    d.setSuperclass ty = .ok e ↔ ∃ id, d.openTypes.head? = some id ∧ ∃ superclass,
      Ty.ofWritten (d.around id) ty = .named superclass ∧ ∃ old constructors fields,
      d.bodyOf id = .classBody old constructors fields ∧
      (d.modifyBody id fun _ => .classBody (some superclass) constructors fields) = e := by
  simp only [setSuperclass, bind_eq_ok_iff, currentType_eq_ok_iff, supertype_eq_ok_iff]
  refine exists_congr fun id => and_congr_right fun _ => exists_congr fun s => and_congr_right
    fun _ => ?_
  cases d.bodyOf id <;> simp [pure_eq_ok_iff, refuse_eq_ok_iff, and_assoc]

theorem addInterface_eq_ok_iff {ty : WrittenType} :
    d.addInterface ty = .ok e ↔ ∃ id, d.openTypes.head? = some id ∧ ∃ interface,
      Ty.ofWritten (d.around id) ty = .named interface ∧
      (d.modifyDecl id fun t => { t with interfaces := t.interfaces ++ [interface] }) = e := by
  simp only [addInterface, bind_eq_ok_iff, pure_eq_ok_iff, currentType_eq_ok_iff,
    supertype_eq_ok_iff]

/-! ## Members -/

/-- The value of the initializer, if there is one. -/
def initialValue (c : Container) (v : Declarator) : Except LiteralError (Option Expr) :=
  match v.initializer with
  | some leaves => (Expr.ofLeaves c leaves).map some
  | none => .ok none

theorem fieldsOf_cons_eq_ok_iff {c : Container} {modifiers : List Modifier}
    {annotations : List AnnotationUse} {ty : Ty} {v : Declarator} {vs : List Declarator}
    {fields : List Field} :
    fieldsOf c modifiers annotations ty (v :: vs) = .ok fields ↔
      ∃ value, initialValue c v = .ok value ∧ ∃ rest,
      fieldsOf c modifiers annotations ty vs = .ok rest ∧
      ⟨v.name, modifiers, annotations, ty.arrayOf v.dimension, value⟩ :: rest = fields := by
  rw [fieldsOf, initialValue]
  cases v.initializer <;> simp only [bind_eq_ok_iff, pure_eq_ok_iff]

theorem addFields_eq_ok_iff {ty : WrittenType} {declarators : List Declarator} :
    d.addFields ty declarators = .ok e ↔ ∃ id, d.openTypes.head? = some id ∧ d.member = none ∧
      ∃ annotations, AnnotationUse.ofWrittenList (.type id) d.annotations = .ok annotations ∧
      ∃ fields, fieldsOf (.type id) d.modifiers annotations (Ty.ofWritten (.type id) ty)
        declarators = .ok fields ∧
      d.cleared.modifyBody id (·.addFields fields) = e := by
  simp only [addFields, bind_eq_ok_iff, pure_eq_ok_iff, currentType_eq_ok_iff,
    requireNoMember_eq_ok_iff, require_eq_ok_iff, exists_const]

theorem addConstant_eq_ok_iff {name : String} :
    d.addConstant name = .ok e ↔ ∃ id, d.openTypes.head? = some id ∧ ∃ annotations,
      AnnotationUse.ofWrittenList (.type id) d.annotations = .ok annotations ∧
      ∃ constants constructors fields,
      d.bodyOf id = .enumBody constants constructors fields ∧
      (d.cleared.modifyBody id fun _ =>
        .enumBody (constants ++ [⟨name, annotations⟩]) constructors fields) = e := by
  simp only [addConstant, bind_eq_ok_iff, currentType_eq_ok_iff, require_eq_ok_iff]
  refine exists_congr fun id => and_congr_right fun _ => exists_congr fun as => and_congr_right
    fun _ => ?_
  cases d.bodyOf id <;> simp [pure_eq_ok_iff, refuse_eq_ok_iff, and_assoc]

theorem addComponent_eq_ok_iff {name : String} {ty : WrittenType} :
    d.addComponent name ty = .ok e ↔ ∃ id, d.openTypes.head? = some id ∧ ∃ annotations,
      AnnotationUse.ofWrittenList (.type id) d.annotations = .ok annotations ∧
      (d.bodyOf id).kind = .recordType ∧
      d.cleared.modifyBody id (·.addFields [⟨name, [.privateAccess, .final], annotations,
        Ty.ofWritten (.type id) ty, none⟩]) = e := by
  simp only [addComponent, bind_eq_ok_iff, currentType_eq_ok_iff, require_eq_ok_iff]
  refine exists_congr fun id => and_congr_right fun _ => exists_congr fun as => and_congr_right
    fun _ => ?_
  cases d.bodyOf id <;> simp [pure_eq_ok_iff, refuse_eq_ok_iff, Body.kind]

theorem enterMethod_eq_ok_iff {name : String} {returnType : WrittenType} :
    d.enterMethod name returnType = .ok e ↔ ∃ id, d.openTypes.head? = some id ∧
      d.member = none ∧ ∃ annotations,
      AnnotationUse.ofWrittenList (.type id) d.annotations = .ok annotations ∧
      { d.cleared.modifyDecl id fun t => { t with methods := t.methods ++
          [⟨name, d.modifiers, annotations, Ty.ofWritten (.type id) returnType, []⟩] } with
        member := some (.method (((d.unit.decl? id).map (·.methods.length)).getD 0))
        typeParam := none } = e := by
  simp only [enterMethod, bind_eq_ok_iff, pure_eq_ok_iff, currentType_eq_ok_iff,
    requireNoMember_eq_ok_iff, require_eq_ok_iff, exists_const]

theorem enterConstructor_eq_ok_iff :
    d.enterConstructor = .ok e ↔ ∃ id, d.openTypes.head? = some id ∧ d.member = none ∧
      ∃ annotations, AnnotationUse.ofWrittenList (.type id) d.annotations = .ok annotations ∧
      (d.bodyOf id).hasConstructors ∧
      { d.cleared.modifyBody id (·.mapConstructors (· ++ [⟨d.modifiers, annotations, []⟩])) with
        member := some (.constructor (d.bodyOf id).constructors.length)
        typeParam := none } = e := by
  simp only [enterConstructor, bind_eq_ok_iff, currentType_eq_ok_iff, requireNoMember_eq_ok_iff,
    require_eq_ok_iff, exists_const]
  refine exists_congr fun id => and_congr_right fun _ => and_congr_right fun _ =>
    exists_congr fun as => and_congr_right fun _ => ?_
  cases (d.bodyOf id).hasConstructors <;> simp [pure_eq_ok_iff, refuse_eq_ok_iff]

/-- The draft with a parameter added to the open member. -/
def withParameter (d : Draft) (id : Nat) (param : Parameter) : MemberSlot → Draft
  | .method index => d.modifyDecl id fun t => { t with
      methods := t.methods.modify index fun m => { m with params := m.params ++ [param] } }
  | .constructor index => d.modifyBody id (·.mapConstructors
      (·.modify index fun c => { c with params := c.params ++ [param] }))

theorem addParameter_eq_ok_iff {name : String} {ty : WrittenType} {varargs : Bool} :
    d.addParameter name ty varargs = .ok e ↔ ∃ id, d.openTypes.head? = some id ∧
      ∃ slot, d.member = some slot ∧ ∃ annotations,
      AnnotationUse.ofWrittenList (.type id) d.annotations = .ok annotations ∧
      d.hasMember id slot ∧ d.cleared.withParameter id ⟨name, d.modifiers, annotations,
        (Ty.ofWritten (.type id) ty).arrayOf (if varargs then 1 else 0), varargs⟩ slot = e := by
  simp only [addParameter, bind_eq_ok_iff, currentType_eq_ok_iff]
  rcases d.member with _ | _ | _ <;>
    simp [pure_eq_ok_iff, bind_eq_ok_iff, require_eq_ok_iff, refuse_eq_ok_iff,
      ite_refuse_eq_ok_iff, withParameter]

theorem exitMember_eq_ok_iff :
    d.exitMember = .ok e ↔ d.member.isSome ∧ { d with member := none, typeParam := none } = e := by
  unfold exitMember
  cases d.member <;> simp [refuse_eq_ok_iff]

/-! ## The unit itself -/

theorem setPackage_eq_ok_iff {name : String} :
    d.setPackage name = .ok e ↔
      d.openTypes = [] ∧ { d with unit := { d.unit with package := some name } } = e := by
  unfold setPackage
  cases d.openTypes <;> simp [refuse_eq_ok_iff]

theorem addModifier_eq_ok_iff {word : String} :
    d.addModifier word = .ok e ↔ ∃ m, Modifier.ofKeyword? word = some m ∧
      { d with modifiers := d.modifiers ++ [m] } = e := by
  unfold addModifier
  cases Modifier.ofKeyword? word <;> simp

end Draft

/-! ## What is lost with a refused event -/

/-- A choice of what waits for a declaration. -/
structure Share where
  modifiers : Bool
  annotations : Bool
deriving DecidableEq, Repr

namespace Share

def nothing : Share := ⟨false, false⟩

def everything : Share := ⟨true, true⟩

def onlyAnnotations : Share := ⟨false, true⟩

end Share

namespace Event

/-- What an event takes of that which waits. Constants and record components have no modifiers of
their own, but modifiers do not wait beyond them. -/
def share : Event → Share
  | .enterType _ _ | .field _ _ | .enumConstant _ | .recordComponent _ _ | .enterMethod _ _
  | .enterConstructor | .parameter _ _ _ => .everything
  | .typeParam _ => .onlyAnnotations
  | .package _ | .importName _ _ | .importStatic _ _ | .modifier _ | .annotate _ | .exitType
  | .typeParamBound _ | .superclass _ | .implement _ | .exitMember => .nothing

/-- Whether the event, inside or outside a type and a member, gets as far as to take its share. -/
def reaches (inType inMember : Bool) : Event → Bool
  | .enterType _ _ => !inMember
  | .typeParam _ | .enumConstant _ | .recordComponent _ _ => inType
  | .field _ _ | .enterMethod _ _ | .enterConstructor => inType && !inMember
  | .parameter _ _ _ => inType && inMember
  | _ => false

/-- What is lost if the event is refused. -/
def lost (inType inMember : Bool) (event : Event) : Share :=
  if event.reaches inType inMember then event.share else .nothing

end Event

namespace Draft

variable {d e : Draft} {construct : Construct}

/-- The draft less a share of what waits. -/
def drop (d : Draft) (share : Share) : Draft :=
  { d with
    modifiers := if share.modifiers then [] else d.modifiers
    annotations := if share.annotations then [] else d.annotations }

/-- What the draft loses if the event is refused. -/
def lost (d : Draft) (event : Event) : Share :=
  event.lost (!d.openTypes.isEmpty) d.member.isSome

theorem drop_lost_of_not_reaches {event : Event}
    (h : event.reaches (!d.openTypes.isEmpty) d.member.isSome = false) :
    d.drop (d.lost event) = d := by
  unfold lost Event.lost
  rw [h]
  rfl

theorem drop_lost_of_reaches {event : Event}
    (h : event.reaches (!d.openTypes.isEmpty) d.member.isSome) :
    d.drop (d.lost event) = d.drop event.share := by
  unfold lost Event.lost
  rw [if_pos h]

/-- A refusal leaves the given draft. -/
def Leaves {α : Type} (left : Draft) (x : Except Refusal α) : Prop :=
  ∀ r, x = .error r → r.draft = left

section Leaves

variable {α β : Type} {left : Draft}

theorem leaves_ok (left : Draft) (a : α) : left.Leaves (.ok a) := by
  intro r h
  cases h

theorem Leaves.bind {x : Except Refusal α} {f : α → Except Refusal β} (hx : left.Leaves x)
    (hf : ∀ a, x = .ok a → left.Leaves (f a)) : left.Leaves (x >>= f) := by
  intro r h
  cases x with
  | error r' =>
    cases h
    exact hx _ rfl
  | ok a => exact hf a rfl r h

theorem Leaves.ite {c : Prop} [Decidable c] {x y : Except Refusal α} (hx : left.Leaves x)
    (hy : left.Leaves y) : left.Leaves (if c then x else y) := by
  split
  · exact hx
  · exact hy

theorem leaves_refuse (left : Draft) (construct : Construct) (m : Misplacement) :
    left.Leaves (left.refuse construct m : Except Refusal α) := by
  rintro r ⟨⟩
  rfl

theorem leaves_require (left : Draft) (x : Except LiteralError α) :
    left.Leaves (left.require x) := by
  intro r h
  cases x with
  | ok a => cases h
  | error l =>
    cases h
    rfl

theorem leaves_requireNamed (left : Draft) (construct : Construct) (ty : Ty) :
    left.Leaves (left.requireNamed construct ty) := by
  unfold requireNamed
  split
  · exact leaves_ok left _
  · exact leaves_refuse left _ _

theorem leaves_currentType (h : d.openTypes = [] → d = left) :
    left.Leaves (d.currentType construct) := by
  unfold currentType
  split
  · exact leaves_ok left _
  · next ho => exact h ho ▸ leaves_refuse d _ _

theorem leaves_requireNoMember (h : d.member.isSome → d = left) :
    left.Leaves (d.requireNoMember construct) := by
  unfold requireNoMember
  split
  · next hm => exact h hm ▸ leaves_refuse d _ _
  · exact leaves_ok left _

end Leaves

/-! ### Events that take nothing -/

theorem leaves_exitType (d : Draft) : d.Leaves d.exitType :=
  (leaves_requireNoMember fun _ => rfl).bind fun _ _ =>
    (leaves_currentType fun _ => rfl).bind fun _ _ => leaves_ok d _

theorem leaves_addTypeParamBound (d : Draft) (ty : WrittenType) :
    d.Leaves (d.addTypeParamBound ty) := by
  refine (leaves_currentType fun _ => rfl).bind fun id _ => ?_
  split
  · exact leaves_refuse d _ _
  · exact leaves_ok d _
  · exact (leaves_requireNamed d _ _).bind fun _ _ => (leaves_ok d _).ite (leaves_refuse d _ _)

theorem leaves_setSuperclass (d : Draft) (ty : WrittenType) : d.Leaves (d.setSuperclass ty) := by
  refine (leaves_currentType fun _ => rfl).bind fun id _ =>
    (leaves_requireNamed d _ _).bind fun _ _ => ?_
  split
  · exact leaves_ok d _
  · exact leaves_refuse d _ _

theorem leaves_addInterface (d : Draft) (ty : WrittenType) : d.Leaves (d.addInterface ty) :=
  (leaves_currentType fun _ => rfl).bind fun _ _ =>
    (leaves_requireNamed d _ _).bind fun _ _ => leaves_ok d _

theorem leaves_exitMember (d : Draft) : d.Leaves d.exitMember :=
  (leaves_ok d _).ite (leaves_refuse d _ _)

theorem leaves_setPackage (d : Draft) (name : String) : d.Leaves (d.setPackage name) :=
  (leaves_ok d _).ite (leaves_refuse d _ _)

theorem leaves_addModifier (d : Draft) (word : String) : d.Leaves (d.addModifier word) := by
  unfold addModifier
  split
  · exact leaves_ok d _
  · rintro r ⟨⟩
    rfl

/-! ### Events that take what waits -/

/-- Inside a type an event that needs one goes on to what it takes. -/
theorem leaves_of_currentType {α : Type} {event : Event} {f : Nat → Except Refusal α}
    (hr : ∀ inMember, event.reaches false inMember = false)
    (hf : ∀ id, d.openTypes.isEmpty = false → (d.drop (d.lost event)).Leaves (f id)) :
    (d.drop (d.lost event)).Leaves (d.currentType construct >>= f) := by
  refine (leaves_currentType fun ho => ?_).bind fun id hid => hf id ?_
  · rw [drop_lost_of_not_reaches (by rw [ho]; exact hr _)]
  · rw [currentType_eq_ok_iff] at hid
    cases ho : d.openTypes with
    | nil => rw [ho] at hid; cases hid
    | cons i rest => rfl

/-- Outside members an event that may not stand in one goes on to what it takes. -/
theorem leaves_of_requireNoMember {α : Type} {event : Event} {f : Unit → Except Refusal α}
    (hr : event.reaches (!d.openTypes.isEmpty) true = false)
    (hf : d.member = none → (d.drop (d.lost event)).Leaves (f ())) :
    (d.drop (d.lost event)).Leaves (d.requireNoMember construct >>= f) := by
  refine (leaves_requireNoMember fun hm => ?_).bind fun _ hm => hf (requireNoMember_eq_ok_iff.mp hm)
  rw [drop_lost_of_not_reaches (by rw [hm]; exact hr)]

theorem leaves_enterType (d : Draft) (kind : Kind) (name : String) :
    (d.drop (d.lost (.enterType kind name))).Leaves (d.enterType kind name) := by
  refine leaves_of_requireNoMember rfl fun hm => ?_
  rw [drop_lost_of_reaches (by simp [Event.reaches, hm])]
  exact (leaves_require d.cleared _).bind fun _ _ => leaves_ok _ _

theorem leaves_addTypeParam (d : Draft) (name : String) :
    (d.drop (d.lost (.typeParam name))).Leaves (d.addTypeParam name) := by
  refine leaves_of_currentType (fun _ => rfl) fun id ho => ?_
  rw [drop_lost_of_reaches (by simp [Event.reaches, ho])]
  exact (leaves_require { d with annotations := [] } _).bind fun _ _ =>
    (leaves_ok _ _).ite (leaves_ok _ _)

theorem leaves_addFields (d : Draft) (ty : WrittenType) (declarators : List Declarator) :
    (d.drop (d.lost (.field ty declarators))).Leaves (d.addFields ty declarators) := by
  refine leaves_of_currentType (fun _ => rfl) fun id ho =>
    leaves_of_requireNoMember (by simp [Event.reaches]) fun hm => ?_
  rw [drop_lost_of_reaches (by simp [Event.reaches, ho, hm])]
  exact (leaves_require d.cleared _).bind fun _ _ =>
    (leaves_require d.cleared _).bind fun _ _ => leaves_ok _ _

theorem leaves_addConstant (d : Draft) (name : String) :
    (d.drop (d.lost (.enumConstant name))).Leaves (d.addConstant name) := by
  refine leaves_of_currentType (fun _ => rfl) fun id ho => ?_
  rw [drop_lost_of_reaches (by simp [Event.reaches, ho])]
  refine (leaves_require d.cleared _).bind fun annotations _ => ?_
  split
  · exact leaves_ok _ _
  · exact leaves_refuse d.cleared _ _

theorem leaves_addComponent (d : Draft) (name : String) (ty : WrittenType) :
    (d.drop (d.lost (.recordComponent name ty))).Leaves (d.addComponent name ty) := by
  refine leaves_of_currentType (fun _ => rfl) fun id ho => ?_
  rw [drop_lost_of_reaches (by simp [Event.reaches, ho])]
  refine (leaves_require d.cleared _).bind fun annotations _ => ?_
  split
  · exact leaves_ok _ _
  · exact leaves_refuse d.cleared _ _

theorem leaves_enterMethod (d : Draft) (name : String) (returnType : WrittenType) :
    (d.drop (d.lost (.enterMethod name returnType))).Leaves (d.enterMethod name returnType) := by
  refine leaves_of_currentType (fun _ => rfl) fun id ho =>
    leaves_of_requireNoMember (by simp [Event.reaches]) fun hm => ?_
  rw [drop_lost_of_reaches (by simp [Event.reaches, ho, hm])]
  exact (leaves_require d.cleared _).bind fun _ _ => leaves_ok _ _

theorem leaves_enterConstructor (d : Draft) :
    (d.drop (d.lost .enterConstructor)).Leaves d.enterConstructor := by
  refine leaves_of_currentType (fun _ => rfl) fun id ho =>
    leaves_of_requireNoMember (by simp [Event.reaches]) fun hm => ?_
  rw [drop_lost_of_reaches (by simp [Event.reaches, ho, hm])]
  exact (leaves_require d.cleared _).bind fun _ _ =>
    (leaves_ok _ _).ite (leaves_refuse d.cleared _ _)

theorem leaves_addParameter (d : Draft) (name : String) (ty : WrittenType) (varargs : Bool) :
    (d.drop (d.lost (.parameter name ty varargs))).Leaves (d.addParameter name ty varargs) := by
  refine leaves_of_currentType (fun _ => rfl) fun id ho => ?_
  cases hm : d.member with
  | none =>
    rw [drop_lost_of_not_reaches (by simp [Event.reaches, hm])]
    exact leaves_refuse d _ _
  | some slot =>
    rw [drop_lost_of_reaches (by simp [Event.reaches, ho, hm])]
    refine (leaves_require d.cleared _).bind fun annotations _ => ?_
    refine Leaves.ite ?_ (leaves_refuse d.cleared _ _)
    cases slot with
    | method index => exact leaves_ok _ _
    | constructor index => exact leaves_ok _ _

/-- A refused event leaves the draft as it was, less what it had taken. -/
theorem draft_of_feed_eq_error {event : Event} {r : Refusal} (h : d.feed event = .error r) :
    r.draft = d.drop (d.lost event) := by
  revert r
  show (d.drop (d.lost event)).Leaves (d.feed event)
  cases event with
  | package name => exact leaves_setPackage d name
  | importName name kind => exact leaves_ok _ _
  | importStatic name wildcard => exact leaves_ok _ _
  | modifier word => exact leaves_addModifier d word
  | annotate use => exact leaves_ok _ _
  | enterType kind name => exact leaves_enterType d kind name
  | exitType => exact leaves_exitType d
  | typeParam name => exact leaves_addTypeParam d name
  | typeParamBound ty => exact leaves_addTypeParamBound d ty
  | superclass ty => exact leaves_setSuperclass d ty
  | implement ty => exact leaves_addInterface d ty
  | field ty declarators => exact leaves_addFields d ty declarators
  | enumConstant name => exact leaves_addConstant d name
  | recordComponent name ty => exact leaves_addComponent d name ty
  | enterMethod name returnType => exact leaves_enterMethod d name returnType
  | enterConstructor => exact leaves_enterConstructor d
  | parameter name ty varargs => exact leaves_addParameter d name ty varargs
  | exitMember => exact leaves_exitMember d

/-- The draft `e` is `d`, except that what waited in `d` may be gone. -/
structure Keeps (d e : Draft) : Prop where
  unit : e.unit = d.unit
  openTypes : e.openTypes = d.openTypes
  member : e.member = d.member
  typeParam : e.typeParam = d.typeParam
  modifiers : e.modifiers = d.modifiers ∨ e.modifiers = []
  annotations : e.annotations = d.annotations ∨ e.annotations = []

theorem keeps_drop (d : Draft) (share : Share) : d.Keeps (d.drop share) where
  unit := rfl
  openTypes := rfl
  member := rfl
  typeParam := rfl
  modifiers := by
    unfold drop
    cases share.modifiers
    · exact .inl rfl
    · exact .inr rfl
  annotations := by
    unfold drop
    cases share.annotations
    · exact .inl rfl
    · exact .inr rfl

/-- A refused event leaves the draft as it was, except that what waited may be gone. -/
theorem keeps_of_feed_eq_error {event : Event} {r : Refusal} (h : d.feed event = .error r) :
    d.Keeps r.draft := by
  rw [draft_of_feed_eq_error h]
  exact keeps_drop d _

end Draft

theorem SourceUnit.ofEvents_eq_ok_iff {strict : Bool} {events : List Event} {u : SourceUnit} :
    SourceUnit.ofEvents strict events = .ok u ↔
      ∃ d, Draft.empty.feedAll events = .ok d ∧ d.finish strict = .ok u := by
  unfold SourceUnit.ofEvents
  cases Draft.empty.feedAll events <;> simp

end SourceModel
