import SourceModel.Proofs.Accepted

/-!
# What events do

An accepted event leaves the declarations of a draft as they are, begins a new one, or makes one
`Edit` of the innermost open type; `Draft.Edits` says which edit, and what it is made of. Together
with what becomes of the open types and of the slots this is the `Effect` of the event, of which
there are far fewer than events. Beside it an event takes its share of what waits and notes what it
reports itself (`Draft.noted`).

`Draft.exists_effect_of_eq_ok` says so once for all events, and gives the whole draft that is left.
What events keep is then shown effect by effect, not event by event.
-/

namespace SourceModel

/-! ## What events report themselves -/

namespace Event

/-- The package that an event names. -/
def package? : Event → Option String
  | .package name => some name
  | _ => none

/-- The import that an event reports. -/
def import? : Event → Option Import
  | .importName name kind => some ⟨name, kind⟩
  | _ => none

/-- The modifier that an event brings. -/
def modifier? : Event → Option Modifier
  | .modifier word => Modifier.ofKeyword? word
  | _ => none

/-- The annotation that an event brings. -/
def annotation? : Event → Option WrittenAnnotationUse
  | .annotate use => some use
  | _ => none

/-- Whether the event has a package, an import, a modifier or an annotation to be noted. -/
def isReport : Event → Bool
  | .package _ | .importName _ _ | .modifier _ | .annotate _ => true
  | _ => false

end Event

/-! ## Edits -/

namespace Body

/-- The body with another superclass, where it can have one. -/
def withSuperclass (superclass : NamedType) : Body → Body
  | .classBody _ cs fs => .classBody (some superclass) cs fs
  | b => b

/-- The body with one more constant, where it has any. -/
def addConstant (constant : EnumConstant) : Body → Body
  | .enumBody ks cs fs => .enumBody (ks ++ [constant]) cs fs
  | b => b

/-! Each change of a body adds to one part, if at all, and leaves the other parts. -/

variable (b : Body)

theorem kind_withSuperclass (s : NamedType) : (b.withSuperclass s).kind = b.kind := by
  cases b <;> rfl

theorem fields_withSuperclass (s : NamedType) : (b.withSuperclass s).fields = b.fields := by
  cases b <;> rfl

theorem constants_withSuperclass (s : NamedType) :
    (b.withSuperclass s).constants = b.constants := by
  cases b <;> rfl

theorem constructors_withSuperclass (s : NamedType) :
    (b.withSuperclass s).constructors = b.constructors := by
  cases b <;> rfl

theorem superclass_withSuperclass (s : NamedType) :
    (b.withSuperclass s).superclass = b.superclass ∨ (b.withSuperclass s).superclass = some s := by
  cases b <;> first | exact .inl rfl | exact .inr rfl

theorem kind_addConstant (k : EnumConstant) : (b.addConstant k).kind = b.kind := by
  cases b <;> rfl

theorem superclass_addConstant (k : EnumConstant) :
    (b.addConstant k).superclass = b.superclass := by
  cases b <;> rfl

theorem fields_addConstant (k : EnumConstant) : (b.addConstant k).fields = b.fields := by
  cases b <;> rfl

theorem constructors_addConstant (k : EnumConstant) :
    (b.addConstant k).constructors = b.constructors := by
  cases b <;> rfl

theorem constants_addConstant (k : EnumConstant) :
    (b.addConstant k).constants = b.constants ∨
      (b.addConstant k).constants = b.constants ++ [k] := by
  cases b <;> first | exact .inl rfl | exact .inr rfl

theorem constructors_addFields (more : List Field) :
    (b.addFields more).constructors = b.constructors := by
  cases b <;> rfl

theorem superclass_addFields (more : List Field) :
    (b.addFields more).superclass = b.superclass := by
  cases b <;> rfl

theorem constants_addFields (more : List Field) : (b.addFields more).constants = b.constants := by
  cases b <;> rfl

theorem fields_addFields (more : List Field) :
    (b.addFields more).fields = b.fields ∨ (b.addFields more).fields = b.fields ++ more := by
  cases b <;> first | exact .inl rfl | exact .inr rfl

theorem superclass_mapConstructors (f : List Constructor → List Constructor) :
    (b.mapConstructors f).superclass = b.superclass := by
  cases b <;> rfl

theorem fields_mapConstructors (f : List Constructor → List Constructor) :
    (b.mapConstructors f).fields = b.fields := by
  cases b <;> rfl

theorem constants_mapConstructors (f : List Constructor → List Constructor) :
    (b.mapConstructors f).constants = b.constants := by
  cases b <;> rfl

theorem constructors_mapConstructors_or (f : List Constructor → List Constructor) :
    (b.mapConstructors f).constructors = b.constructors ∨
      (b.mapConstructors f).constructors = f b.constructors := by
  cases b <;> first | exact .inl rfl | exact .inr rfl

theorem constructors_mapConstructors {b : Body} (h : b.hasConstructors)
    (f : List Constructor → List Constructor) :
    (b.mapConstructors f).constructors = f b.constructors := by
  cases b <;> first | rfl | cases h

theorem length_constructors_mapConstructors {f : List Constructor → List Constructor}
    (h : ∀ cs, (f cs).length = cs.length) :
    (b.mapConstructors f).constructors.length = b.constructors.length := by
  cases b <;> first | rfl | exact h _

end Body

/-- A change of one declaration. -/
inductive Edit where
  | typeParam (param : TypeParam)
  /-- One more bound of the type parameter of the given number. -/
  | bound (index : Nat) (bound : NamedType)
  | superclass (superclass : NamedType)
  | interface (interface : NamedType)
  | fields (fields : List Field)
  | constant (constant : EnumConstant)
  | method (method : Method)
  | constructor (constructor : Constructor)
  | param (slot : MemberSlot) (param : Parameter)

namespace Edit

def apply : Edit → Declaration → Declaration
  | .typeParam p, t => { t with typeParams := t.typeParams ++ [p] }
  | .bound index b, t => { t with
      typeParams := t.typeParams.modify index fun p => { p with bounds := p.bounds ++ [b] } }
  | .superclass s, t => { t with body := t.body.withSuperclass s }
  | .interface i, t => { t with interfaces := t.interfaces ++ [i] }
  | .fields fs, t => { t with body := t.body.addFields fs }
  | .constant k, t => { t with body := t.body.addConstant k }
  | .method m, t => { t with methods := t.methods ++ [m] }
  | .constructor c, t => { t with body := t.body.mapConstructors (· ++ [c]) }
  | .param (.method index) p, t => { t with
      methods := t.methods.modify index fun m => { m with params := m.params ++ [p] } }
  | .param (.constructor index) p, t => { t with
      body := t.body.mapConstructors
        (·.modify index fun c => { c with params := c.params ++ [p] }) }

variable (edit : Edit) (x : Declaration)

theorem container_apply : (edit.apply x).container = x.container := by
  cases edit with
  | param slot => cases slot <;> rfl
  | _ => rfl

theorem nested_apply : (edit.apply x).nested = x.nested := by
  cases edit with
  | param slot => cases slot <;> rfl
  | _ => rfl

theorem kind_apply : (edit.apply x).kind = x.kind := by
  cases edit with
  | superclass s => exact x.body.kind_withSuperclass s
  | fields fs => exact Body.kind_addFields fs x.body
  | constant k => exact x.body.kind_addConstant k
  | constructor c => exact Body.kind_mapConstructors _ x.body
  | param slot =>
    cases slot with
    | method index => rfl
    | constructor index => exact Body.kind_mapConstructors _ x.body
  | _ => rfl

end Edit

theorem SourceUnit.modifyDecl_congr {u : SourceUnit} {id : Nat} {f g : Declaration → Declaration}
    (h : ∀ x, u.decl? id = some x → f x = g x) : u.modifyDecl id f = u.modifyDecl id g := by
  unfold SourceUnit.modifyDecl
  congr 1
  refine List.ext_getElem? fun i => ?_
  rw [List.getElem?_modify, List.getElem?_modify]
  by_cases hi : id = i
  · subst hi
    cases hx : u.decls[id]? with
    | none => rfl
    | some x => simp [h x hx]
  · simp [hi]

namespace Draft

variable {d e : Draft} {event : Event}

/-- The edit that an event makes in the innermost open type `id`. Types and annotations are looked
up in the type itself, only supertypes in what is around it. -/
inductive Edits (d : Draft) (id : Nat) : Event → Edit → Prop where
  | typeParam {name as} : d.member = none →
      AnnotationUse.ofWrittenList (.type id) d.annotations = .ok as →
      Edits d id (.typeParam name) (.typeParam ⟨name, as, []⟩)
  | bound {ty index b} : d.typeParam = some (.ofType index) →
      Ty.ofWritten (.type id) ty = .named b → Edits d id (.typeParamBound ty) (.bound index b)
  | superclass {ty s} : Ty.ofWritten (d.around id) ty = .named s →
      Edits d id (.superclass ty) (.superclass s)
  | interface {ty i} : Ty.ofWritten (d.around id) ty = .named i →
      Edits d id (.implement ty) (.interface i)
  | fields {ty declarators as fs} :
      AnnotationUse.ofWrittenList (.type id) d.annotations = .ok as →
      fieldsOf (.type id) d.modifiers as (Ty.ofWritten (.type id) ty) declarators = .ok fs →
      Edits d id (.field ty declarators) (.fields fs)
  | constant {name as} : AnnotationUse.ofWrittenList (.type id) d.annotations = .ok as →
      Edits d id (.enumConstant name) (.constant ⟨name, as⟩)
  | component {name ty as} : AnnotationUse.ofWrittenList (.type id) d.annotations = .ok as →
      Edits d id (.recordComponent name ty)
        (.fields [⟨name, [.privateAccess, .final], as, Ty.ofWritten (.type id) ty, none⟩])
  | method {name returnType as} : d.member = none →
      AnnotationUse.ofWrittenList (.type id) d.annotations = .ok as →
      Edits d id (.enterMethod name returnType)
        (.method ⟨name, d.modifiers, as, Ty.ofWritten (.type id) returnType, []⟩)
  | constructor {as} : d.member = none → (d.bodyOf id).hasConstructors →
      AnnotationUse.ofWrittenList (.type id) d.annotations = .ok as →
      Edits d id .enterConstructor (.constructor ⟨d.modifiers, as, []⟩)
  | param {name ty varargs slot as} : d.member = some slot →
      AnnotationUse.ofWrittenList (.type id) d.annotations = .ok as →
      Edits d id (.parameter name ty varargs) (.param slot ⟨name, d.modifiers, as,
        (Ty.ofWritten (.type id) ty).arrayOf (if varargs then 1 else 0), varargs⟩)

/-! ## Effects -/

/-- The open member after an edit of the declaration `id`: one that is added is open. -/
def memberAfter (d : Draft) (id : Nat) : Edit → Option MemberSlot
  | .method _ => some (.method (((d.unit.decl? id).map (·.methods.length)).getD 0))
  | .constructor _ => some (.constructor (d.bodyOf id).constructors.length)
  | _ => d.member

/-- The type parameter that bounds belong to after an edit of the declaration `id`: one that is
added, and none once a member begins. -/
def typeParamAfter (d : Draft) (id : Nat) : Edit → Option TypeParamSlot
  | .typeParam _ => some (.ofType (((d.unit.decl? id).map (·.typeParams.length)).getD 0))
  | .method _ | .constructor _ => none
  | _ => d.typeParam

/-- The draft with an edit of the declaration `id`. -/
def edited (d : Draft) (id : Nat) (edit : Edit) : Draft :=
  { d.modifyDecl id edit.apply with
    member := d.memberAfter id edit
    typeParam := d.typeParamAfter id edit }

/-- The draft after an event took its share of what waits and noted what it reports. -/
def noted (d : Draft) (event : Event) : Draft where
  unit := { d.unit with
    package := event.package?.or d.unit.package
    imports := d.unit.imports ++ event.import?.toList }
  modifiers := (d.drop event.share).modifiers ++ event.modifier?.toList
  annotations := (d.drop event.share).annotations ++ event.annotation?.toList
  openTypes := d.openTypes
  member := d.member
  typeParam := d.typeParam

theorem noted_eq_drop (h : event.isReport = false) : d.noted event = d.drop event.share := by
  cases event with
  | package | importName | modifier | annotate => cases h
  | _ => simp [noted, drop, Event.package?, Event.import?, Event.modifier?, Event.annotation?]

theorem eq_noted (h : event.isReport = false) (he : e = d.drop event.share) :
    e = d.noted event := by
  rw [he, noted_eq_drop h]

theorem unit_noted (h : event.isReport = false) : (d.noted event).unit = d.unit := by
  rw [noted_eq_drop h]
  rfl

end Draft

/-- What an accepted event does to the declarations, the open types and the slots. -/
inductive Effect where
  | nothing
  | opens (x : Declaration)
  | closes
  | edits (id : Nat) (edit : Edit)
  /-- A type parameter of a member, which is passed over with its bounds. -/
  | passesOver
  | endsMember

def Effect.apply (d : Draft) : Effect → Draft
  | .nothing => d
  | .opens x => { d with
      unit := d.unit.addDecl x
      openTypes := d.unit.decls.length :: d.openTypes
      typeParam := none }
  | .closes => { d with openTypes := d.openTypes.tail, typeParam := none }
  | .edits id edit => d.edited id edit
  | .passesOver => { d with typeParam := some .ignored }
  | .endsMember => { d with member := none, typeParam := none }

namespace Draft

variable {d e : Draft} {event : Event}

/-- The effect that an event has. -/
inductive HasEffect (d : Draft) : Event → Effect → Prop where
  | package {name} : HasEffect d (.package name) .nothing
  | importName {name kind} : HasEffect d (.importName name kind) .nothing
  | importStatic {name wildcard} : HasEffect d (.importStatic name wildcard) .nothing
  | modifier {word m} : Modifier.ofKeyword? word = some m → HasEffect d (.modifier word) .nothing
  | annotate {use} : HasEffect d (.annotate use) .nothing
  | enterType {kind name as} : d.member = none →
      AnnotationUse.ofWrittenList (.type d.unit.decls.length) d.annotations = .ok as →
      HasEffect d (.enterType kind name) (.opens { Declaration.empty kind name d.container with
        modifiers := d.modifiers, annotations := as })
  | exitType : d.member = none → HasEffect d .exitType .closes
  | edits {event id edit} : d.openTypes.head? = some id → d.Edits id event edit →
      HasEffect d event (.edits id edit)
  | ignoredTypeParam {name} : d.member.isSome → HasEffect d (.typeParam name) .passesOver
  | ignoredBound {ty} : d.typeParam = some .ignored → HasEffect d (.typeParamBound ty) .nothing
  | exitMember : HasEffect d .exitMember .endsMember

/-- An accepted event has one effect, and notes what it reports. -/
theorem exists_effect_of_eq_ok (h : d.feed event = .ok e) :
    ∃ effect, d.HasEffect event effect ∧ e = (effect.apply d).noted event := by
  cases event with
  | package name =>
    obtain ⟨-, rfl⟩ := setPackage_eq_ok_iff.mp h
    refine ⟨_, .package, ?_⟩
    simp [Effect.apply, noted, drop, Event.share, Share.nothing, Event.package?, Event.import?,
      Event.modifier?, Event.annotation?]
  | importName name kind =>
    cases h
    refine ⟨_, .importName, ?_⟩
    simp [Effect.apply, addImport, noted, drop, Event.share, Share.nothing, Event.package?,
      Event.import?, Event.modifier?, Event.annotation?]
  | importStatic name wildcard =>
    cases h
    exact ⟨_, .importStatic, eq_noted rfl rfl⟩
  | modifier word =>
    obtain ⟨m, hm, rfl⟩ := addModifier_eq_ok_iff.mp h
    refine ⟨_, .modifier hm, ?_⟩
    simp [Effect.apply, noted, drop, Event.share, Share.nothing, Event.package?, Event.import?,
      Event.modifier?, Event.annotation?, hm]
  | annotate use =>
    cases h
    refine ⟨_, .annotate, ?_⟩
    simp [Effect.apply, noted, drop, Event.share, Share.nothing, Event.package?, Event.import?,
      Event.modifier?, Event.annotation?]
  | enterType kind name =>
    obtain ⟨hm, as, has, rfl⟩ := enterType_eq_ok_iff.mp h
    exact ⟨_, .enterType hm has, eq_noted rfl rfl⟩
  | exitType =>
    obtain ⟨hm, id, -, rfl⟩ := exitType_eq_ok_iff.mp h
    exact ⟨_, .exitType hm, eq_noted rfl rfl⟩
  | typeParam name =>
    obtain ⟨id, hid, as, has, rfl⟩ := addTypeParam_eq_ok_iff.mp h
    by_cases hm : d.member.isSome
    · rw [if_pos hm]
      exact ⟨_, .ignoredTypeParam hm, eq_noted rfl rfl⟩
    · rw [if_neg hm]
      have hnone : d.member = none := Option.not_isSome_iff_eq_none.mp hm
      exact ⟨_, .edits hid (.typeParam hnone has), eq_noted rfl rfl⟩
  | typeParamBound ty =>
    obtain ⟨id, hid, ⟨hs, rfl⟩ | ⟨index, hs, b, hb, -, rfl⟩⟩ := addTypeParamBound_eq_ok_iff.mp h
    · exact ⟨_, .ignoredBound hs, eq_noted rfl rfl⟩
    · exact ⟨_, .edits hid (.bound hs hb), eq_noted rfl rfl⟩
  | superclass ty =>
    obtain ⟨id, hid, s, hs, old, cs, fs, hb, rfl⟩ := setSuperclass_eq_ok_iff.mp h
    refine ⟨_, .edits hid (.superclass hs), ?_⟩
    rw [noted_eq_drop rfl]
    -- the two changes agree on the body of a class, and this is one
    refine congrArg (fun u => { d with unit := u }) (SourceUnit.modifyDecl_congr fun x hx => ?_)
    rw [bodyOf_eq hx] at hb
    simp only [Edit.apply, hb]
    rfl
  | implement ty =>
    obtain ⟨id, hid, i, hi, rfl⟩ := addInterface_eq_ok_iff.mp h
    exact ⟨_, .edits hid (.interface hi), eq_noted rfl rfl⟩
  | field ty declarators =>
    obtain ⟨id, hid, -, as, has, fs, hfs, rfl⟩ := addFields_eq_ok_iff.mp h
    exact ⟨_, .edits hid (.fields has hfs), eq_noted rfl rfl⟩
  | enumConstant name =>
    obtain ⟨id, hid, as, has, ks, cs, fs, hb, rfl⟩ := addConstant_eq_ok_iff.mp h
    refine ⟨_, .edits hid (.constant has), ?_⟩
    rw [noted_eq_drop rfl]
    refine congrArg (fun u => { d.cleared with unit := u })
      (SourceUnit.modifyDecl_congr fun x hx => ?_)
    rw [bodyOf_eq (show d.unit.decl? id = some x from hx)] at hb
    simp only [Edit.apply, hb]
    rfl
  | recordComponent name ty =>
    obtain ⟨id, hid, as, has, -, rfl⟩ := addComponent_eq_ok_iff.mp h
    exact ⟨_, .edits hid (.component has), eq_noted rfl rfl⟩
  | enterMethod name returnType =>
    obtain ⟨id, hid, hm, as, has, rfl⟩ := enterMethod_eq_ok_iff.mp h
    exact ⟨_, .edits hid (.method hm has), eq_noted rfl rfl⟩
  | enterConstructor =>
    obtain ⟨id, hid, hm, as, has, hb, rfl⟩ := enterConstructor_eq_ok_iff.mp h
    exact ⟨_, .edits hid (.constructor hm hb has), eq_noted rfl rfl⟩
  | parameter name ty varargs =>
    obtain ⟨id, hid, slot, hm, as, has, -, rfl⟩ := addParameter_eq_ok_iff.mp h
    refine ⟨_, .edits hid (.param hm has), ?_⟩
    rw [noted_eq_drop rfl]
    cases slot <;> rfl
  | exitMember =>
    obtain ⟨-, rfl⟩ := exitMember_eq_ok_iff.mp h
    exact ⟨_, .exitMember, eq_noted rfl rfl⟩

/-- What an accepted event does to the declarations. -/
inductive DeclStep (d e : Draft) (event : Event) : Prop where
  | same : e.unit.decls = d.unit.decls → DeclStep d e event
  | begins {kind name as} : event = .enterType kind name →
      AnnotationUse.ofWrittenList (.type d.unit.decls.length) d.annotations = .ok as →
      e.unit = d.unit.addDecl { Declaration.empty kind name d.container with
        modifiers := d.modifiers, annotations := as } → DeclStep d e event
  | edits {id edit} : d.openTypes.head? = some id → d.Edits id event edit →
      e.unit = d.unit.modifyDecl id edit.apply → DeclStep d e event

theorem Edits.not_isReport {id : Nat} {edit : Edit} (h : d.Edits id event edit) :
    event.isReport = false := by
  cases h <;> rfl

theorem declStep_of_eq_ok (h : d.feed event = .ok e) : DeclStep d e event := by
  obtain ⟨effect, heffect, rfl⟩ := exists_effect_of_eq_ok h
  cases effect with
  | opens x =>
    cases heffect with
    | enterType _ has => exact .begins rfl has (unit_noted rfl)
  | edits id edit =>
    cases heffect with
    | edits hid hedit => exact .edits hid hedit (unit_noted hedit.not_isReport)
  | _ => exact .same rfl

end Draft

end SourceModel
