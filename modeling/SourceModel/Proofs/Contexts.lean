import SourceModel.Proofs.Drafts
import SourceModel.Proofs.LiteralTexts

/-!
# Contexts

Whether events make a unit does not depend on what is declared, only on where each event stands.
A `Context` holds what counts: the kinds of the open types, whether a member is open, whether a
bound can follow, and what waits for a declaration. `Context.allows` and `Context.after` say which
events may come next and what they make of the context, without any table of declarations.

A draft in order has a context (`Draft.context`). It accepts an event exactly if its context allows
it (`Draft.exists_feed_iff`), and then its context follows (`Draft.context_of_feed`); so events make
a unit exactly if they run from the empty context to a final one.
-/

namespace SourceModel

/-! ## Types, modifiers and kinds as they are told apart -/

/-- Whether the written type names a declared type: it is no primitive type and no array. -/
def WrittenType.isNamed : WrittenType → Bool
  | .named segments => (Segment.primitive? segments).isNone
  | .array component dimension => dimension == 0 && component.isNamed

theorem Ty.exists_arrayOf_eq_named_iff (ty : Ty) (dimension : Nat) :
    (∃ n, ty.arrayOf dimension = .named n) ↔ dimension = 0 ∧ ∃ n, ty = .named n := by
  unfold Ty.arrayOf
  cases dimension with
  | zero => simp
  | succ dimension => cases ty <;> simp

/-- In whatever container a type is read, it is named or it is not. -/
theorem Ty.exists_ofWritten_eq_named_iff (c : Container) :
    (ty : WrittenType) → ((∃ n, Ty.ofWritten c ty = .named n) ↔ ty.isNamed)
  | .named segments => by
    rw [Ty.ofWritten, WrittenType.isNamed]
    cases Segment.primitive? segments <;> simp
  | .array component dimension => by
    rw [Ty.ofWritten, WrittenType.isNamed, Ty.exists_arrayOf_eq_named_iff,
      Ty.exists_ofWritten_eq_named_iff c component]
    simp

theorem Modifier.exists_ofKeyword?_iff {word : String} :
    (∃ m, Modifier.ofKeyword? word = some m) ↔ (Modifier.all.map (·.keyword)).contains word := by
  unfold Modifier.ofKeyword?
  rw [← Option.isSome_iff_exists, List.find?_isSome]
  simp

theorem Modifier.keyword_eq_of_ofKeyword? {word : String} {m : Modifier}
    (h : Modifier.ofKeyword? word = some m) : m.keyword = word := by
  unfold Modifier.ofKeyword? at h
  simpa using List.find?_some h

/-- Interfaces and annotation types have no constructors. -/
def Kind.hasConstructors : Kind → Bool
  | .classType | .enumType | .recordType => true
  | .interfaceType | .annotationType => false

theorem Body.hasConstructors_eq (b : Body) : b.hasConstructors = b.kind.hasConstructors := by
  cases b <;> rfl

theorem Body.kind_eq_classType_iff {b : Body} :
    b.kind = .classType ↔ ∃ s cs fs, b = .classBody s cs fs := by
  cases b <;> simp [Body.kind]

theorem Body.kind_eq_enumType_iff {b : Body} :
    b.kind = .enumType ↔ ∃ ks cs fs, b = .enumBody ks cs fs := by
  cases b <;> simp [Body.kind]

/-! ## Contexts -/

/-- The type parameter to which a bound would belong: one of the innermost open type, or one of a
member, which is passed over. -/
inductive BoundSlot where
  | ofType
  | ignored
deriving DecidableEq, Repr

/-- Where the next event stands. -/
@[ext]
structure Context where
  /-- The kinds of the open types, innermost first. -/
  kinds : List Kind
  inMember : Bool
  bound : Option BoundSlot
  /-- The words of the modifiers that wait for a declaration. -/
  modifiers : List String
  /-- The annotations that wait for a declaration. -/
  annotations : List WrittenAnnotationUse

namespace Context

def empty : Context := ⟨[], false, none, [], []⟩

/-- The context with nothing waiting. -/
def cleared (c : Context) : Context :=
  { c with modifiers := [], annotations := [] }

/-- Whether a declaration can take the annotations that wait. -/
def canTake (c : Context) : Bool :=
  Literal.allRead (WrittenAnnotationUse.textsOfList c.annotations)

/-- Whether a bound may come next. One that is passed over may be any type. -/
def allowsBound (c : Context) (ty : WrittenType) : Bool :=
  match c.bound with
  | none => false
  | some .ignored => true
  | some .ofType => ty.isNamed

/-- Whether the event may come next. -/
def allows (c : Context) : Event → Bool
  | .package _ => c.kinds.isEmpty
  | .importName _ _ | .importStatic _ _ | .annotate _ => true
  | .modifier word => (Modifier.all.map (·.keyword)).contains word
  | .enterType _ _ => !c.inMember && c.canTake
  | .exitType => !c.kinds.isEmpty && !c.inMember
  | .typeParam _ => !c.kinds.isEmpty && c.canTake
  | .typeParamBound ty => !c.kinds.isEmpty && c.allowsBound ty
  | .superclass ty => c.kinds.head? == some .classType && ty.isNamed
  | .implement ty => !c.kinds.isEmpty && ty.isNamed
  | .field _ declarators => !c.kinds.isEmpty && !c.inMember && c.canTake &&
      Literal.allRead (declarators.flatMap (·.texts))
  | .enumConstant _ => c.kinds.head? == some .enumType && c.canTake
  | .recordComponent _ _ => c.kinds.head? == some .recordType && c.canTake
  | .enterMethod _ _ => !c.kinds.isEmpty && !c.inMember && c.canTake
  | .enterConstructor => c.kinds.head?.any (·.hasConstructors) && !c.inMember && c.canTake
  | .parameter _ _ _ => !c.kinds.isEmpty && c.inMember && c.canTake
  | .exitMember => c.inMember

/-- The context after an event that is allowed. -/
def after (c : Context) : Event → Context
  | .package _ | .importName _ _ | .importStatic _ _ => c
  | .modifier word => { c with modifiers := c.modifiers ++ [word] }
  | .annotate use => { c with annotations := c.annotations ++ [use] }
  | .enterType kind _ => { c.cleared with kinds := kind :: c.kinds, bound := none }
  | .exitType => { c with kinds := c.kinds.tail, bound := none }
  -- modifiers go on waiting
  | .typeParam _ =>
    { c with annotations := [], bound := some (if c.inMember then .ignored else .ofType) }
  | .typeParamBound _ | .superclass _ | .implement _ => c
  | .field _ _ | .enumConstant _ | .recordComponent _ _ | .parameter _ _ _ => c.cleared
  | .enterMethod _ _ | .enterConstructor => { c.cleared with inMember := true, bound := none }
  | .exitMember => { c with inMember := false, bound := none }

/-- Whether the events may end here: no type is open and, if that is asked, nothing waits. -/
def isFinal (strict : Bool) (c : Context) : Bool :=
  c.kinds.isEmpty && (!strict || c.modifiers.isEmpty && c.annotations.isEmpty)

/-- Whether all events are allowed, one after the other, and may end there. -/
def accepts (strict : Bool) (c : Context) : List Event → Bool
  | [] => c.isFinal strict
  | event :: events => c.allows event && (c.after event).accepts strict events

end Context

/-! ## The context of a draft -/

def TypeParamSlot.boundSlot : TypeParamSlot → BoundSlot
  | .ofType _ => .ofType
  | .ignored => .ignored

namespace Draft

variable {d e : Draft} {event : Event}

/-- The kinds of the open types, innermost first. -/
def kinds (d : Draft) : List Kind :=
  d.openTypes.map fun id => (d.bodyOf id).kind

/-- What counts for the events to come. -/
def context (d : Draft) : Context where
  kinds := d.kinds
  inMember := d.member.isSome
  bound := d.typeParam.map (·.boundSlot)
  modifiers := d.modifiers.map (·.keyword)
  annotations := d.annotations

/-! ### Conditions on a draft and its context -/

theorem isEmpty_kinds_iff : d.context.kinds.isEmpty ↔ d.openTypes = [] := by
  rw [List.isEmpty_iff]
  exact List.map_eq_nil_iff

theorem not_isEmpty_kinds_iff :
    (!d.context.kinds.isEmpty) ↔ ∃ id, d.openTypes.head? = some id := by
  rw [Bool.not_eq_true', ← Bool.not_eq_true, isEmpty_kinds_iff]
  cases d.openTypes <;> simp

theorem head?_kinds_iff {kind : Kind} : (d.context.kinds.head? == some kind) ↔
    ∃ id, d.openTypes.head? = some id ∧ (d.bodyOf id).kind = kind := by
  simp [context, kinds]

theorem any_head?_kinds_iff : d.context.kinds.head?.any (·.hasConstructors) ↔
    ∃ id, d.openTypes.head? = some id ∧ (d.bodyOf id).hasConstructors := by
  simp only [Body.hasConstructors_eq, context, kinds, List.head?_map, Option.any_map,
    Option.any_eq_true]

theorem not_inMember_iff : (!d.context.inMember) ↔ d.member = none := by
  simp [context]

/-- Whether the annotations that wait can be taken is the same in every container. -/
theorem canTake_iff (c : Container) :
    d.context.canTake ↔ ∃ as, AnnotationUse.ofWrittenList c d.annotations = .ok as :=
  (AnnotationUse.reads_ofWrittenList c d.annotations).exists_ok_iff.symm

theorem canTake_of_eq_ok {c : Container} {as : List AnnotationUse}
    (h : AnnotationUse.ofWrittenList c d.annotations = .ok as) : d.context.canTake :=
  (canTake_iff c).mpr ⟨as, h⟩

theorem allowsBound_iff {ty : WrittenType} : d.context.allowsBound ty ↔
    d.typeParam = some .ignored ∨ ∃ index, d.typeParam = some (.ofType index) ∧ ty.isNamed := by
  unfold Context.allowsBound context
  rcases d.typeParam with _ | _ | _ <;> simp [TypeParamSlot.boundSlot]

/-! ### Slots of a draft in order -/

theorem hasMember_of_isLast {id : Nat} {x : Declaration} (hx : d.unit.decl? id = some x)
    {slot : MemberSlot} (h : slot.IsLast x) : d.hasMember id slot := by
  cases slot with
  | method index =>
    have hlt : index < x.methods.length := Nat.lt_of_succ_le (Nat.le_of_eq h)
    simp [Draft.hasMember, hx, hlt]
  | constructor index =>
    have hlt : index < x.body.constructors.length := Nat.lt_of_succ_le (Nat.le_of_eq h)
    simp [Draft.hasMember, bodyOf_eq hx, hlt]

/-- An open member is there, so a parameter finds its list. -/
theorem SlotsFit.hasMember (h : d.SlotsFit) {id : Nat} {slot : MemberSlot}
    (hid : d.openTypes.head? = some id) (hs : d.member = some slot) : d.hasMember id slot := by
  obtain ⟨x, hx, hlast⟩ := h.member slot hs
  rw [current?_eq hid] at hx
  exact hasMember_of_isLast hx hlast

/-- The type parameter that waits for bounds is there. -/
theorem SlotsFit.hasTypeParam (h : d.SlotsFit) {id index : Nat}
    (hid : d.openTypes.head? = some id) (hs : d.typeParam = some (.ofType index)) :
    d.hasTypeParam id index := by
  obtain ⟨-, x, hx, hlast⟩ := h.typeParam index hs
  rw [current?_eq hid] at hx
  have hlt : index < x.typeParams.length := Nat.lt_of_succ_le (Nat.le_of_eq hlast)
  simp [Draft.hasTypeParam, hx, hlt]

/-! ## Events that are accepted -/

/-- A draft in order accepts an event exactly if its context allows it. -/
theorem exists_feed_iff (hd : d.SlotsFit) (event : Event) :
    (∃ e, d.feed event = .ok e) ↔ d.context.allows event := by
  cases event with
  | package name =>
    simp only [feed, setPackage_eq_ok_iff, Context.allows, isEmpty_kinds_iff]
    exact ⟨fun ⟨_, hids, _⟩ => hids, fun hids => ⟨_, hids, rfl⟩⟩
  | importName name kind => simp [feed, Context.allows]
  | importStatic name wildcard => simp [feed, Context.allows]
  | modifier word =>
    simp only [feed, addModifier_eq_ok_iff, Context.allows, ← Modifier.exists_ofKeyword?_iff]
    exact ⟨fun ⟨_, m, hm, _⟩ => ⟨m, hm⟩, fun ⟨m, hm⟩ => ⟨_, m, hm, rfl⟩⟩
  | annotate use => simp [feed, Context.allows]
  | enterType kind name =>
    simp only [feed, enterType_eq_ok_iff, Context.allows, Bool.and_eq_true, not_inMember_iff]
    constructor
    · rintro ⟨e, hm, as, has, -⟩
      exact ⟨hm, canTake_of_eq_ok has⟩
    · rintro ⟨hm, ha⟩
      obtain ⟨as, has⟩ := (canTake_iff _).mp ha
      exact ⟨_, hm, as, has, rfl⟩
  | exitType =>
    simp only [feed, exitType_eq_ok_iff, Context.allows, Bool.and_eq_true, not_inMember_iff,
      not_isEmpty_kinds_iff]
    exact ⟨fun ⟨_, hm, id, hid, _⟩ => ⟨⟨id, hid⟩, hm⟩, fun ⟨⟨id, hid⟩, hm⟩ => ⟨_, hm, id, hid, rfl⟩⟩
  | typeParam name =>
    simp only [feed, addTypeParam_eq_ok_iff, Context.allows, Bool.and_eq_true,
      not_isEmpty_kinds_iff]
    constructor
    · rintro ⟨e, id, hid, as, has, -⟩
      exact ⟨⟨id, hid⟩, canTake_of_eq_ok has⟩
    · rintro ⟨⟨id, hid⟩, ha⟩
      obtain ⟨as, has⟩ := (canTake_iff _).mp ha
      exact ⟨_, id, hid, as, has, rfl⟩
  | typeParamBound ty =>
    simp only [feed, addTypeParamBound_eq_ok_iff, Context.allows, Bool.and_eq_true,
      not_isEmpty_kinds_iff, allowsBound_iff]
    constructor
    · rintro ⟨e, id, hid, ⟨hs, -⟩ | ⟨index, hs, bound, hb, -⟩⟩
      · exact ⟨⟨id, hid⟩, .inl hs⟩
      · exact ⟨⟨id, hid⟩, .inr ⟨index, hs, (Ty.exists_ofWritten_eq_named_iff _ ty).mp ⟨bound, hb⟩⟩⟩
    · rintro ⟨⟨id, hid⟩, hs | ⟨index, hs, hty⟩⟩
      · exact ⟨d, id, hid, .inl ⟨hs, rfl⟩⟩
      · obtain ⟨bound, hb⟩ := (Ty.exists_ofWritten_eq_named_iff (.type id) ty).mpr hty
        exact ⟨_, id, hid, .inr ⟨index, hs, bound, hb, hd.hasTypeParam hid hs, rfl⟩⟩
  | superclass ty =>
    simp only [feed, setSuperclass_eq_ok_iff, Context.allows, Bool.and_eq_true, head?_kinds_iff]
    constructor
    · rintro ⟨e, id, hid, s, hs, old, cs, fs, hb, -⟩
      exact ⟨⟨id, hid, by rw [hb]; rfl⟩, (Ty.exists_ofWritten_eq_named_iff _ ty).mp ⟨s, hs⟩⟩
    · rintro ⟨⟨id, hid, hk⟩, hty⟩
      obtain ⟨s, hs⟩ := (Ty.exists_ofWritten_eq_named_iff (d.around id) ty).mpr hty
      obtain ⟨old, cs, fs, hb⟩ := Body.kind_eq_classType_iff.mp hk
      exact ⟨_, id, hid, s, hs, old, cs, fs, hb, rfl⟩
  | implement ty =>
    simp only [feed, addInterface_eq_ok_iff, Context.allows, Bool.and_eq_true,
      not_isEmpty_kinds_iff]
    constructor
    · rintro ⟨e, id, hid, i, hi, -⟩
      exact ⟨⟨id, hid⟩, (Ty.exists_ofWritten_eq_named_iff _ ty).mp ⟨i, hi⟩⟩
    · rintro ⟨⟨id, hid⟩, hty⟩
      obtain ⟨i, hi⟩ := (Ty.exists_ofWritten_eq_named_iff (d.around id) ty).mpr hty
      exact ⟨_, id, hid, i, hi, rfl⟩
  | field ty declarators =>
    simp only [feed, addFields_eq_ok_iff, Context.allows, Bool.and_eq_true, not_inMember_iff,
      not_isEmpty_kinds_iff]
    constructor
    · rintro ⟨e, id, hid, hm, as, has, fs, hfs, -⟩
      exact ⟨⟨⟨⟨id, hid⟩, hm⟩, canTake_of_eq_ok has⟩,
        (reads_fieldsOf _ _ _ _ declarators).exists_ok_iff.mp ⟨fs, hfs⟩⟩
    · rintro ⟨⟨⟨⟨id, hid⟩, hm⟩, ha⟩, hread⟩
      obtain ⟨as, has⟩ := (canTake_iff _).mp ha
      obtain ⟨fs, hfs⟩ := (reads_fieldsOf (.type id) d.modifiers as (Ty.ofWritten (.type id) ty)
        declarators).exists_ok_iff.mpr hread
      exact ⟨_, id, hid, hm, as, has, fs, hfs, rfl⟩
  | enumConstant name =>
    simp only [feed, addConstant_eq_ok_iff, Context.allows, Bool.and_eq_true, head?_kinds_iff]
    constructor
    · rintro ⟨e, id, hid, as, has, ks, cs, fs, hb, -⟩
      exact ⟨⟨id, hid, by rw [hb]; rfl⟩, canTake_of_eq_ok has⟩
    · rintro ⟨⟨id, hid, hk⟩, ha⟩
      obtain ⟨as, has⟩ := (canTake_iff _).mp ha
      obtain ⟨ks, cs, fs, hb⟩ := Body.kind_eq_enumType_iff.mp hk
      exact ⟨_, id, hid, as, has, ks, cs, fs, hb, rfl⟩
  | recordComponent name ty =>
    simp only [feed, addComponent_eq_ok_iff, Context.allows, Bool.and_eq_true, head?_kinds_iff]
    constructor
    · rintro ⟨e, id, hid, as, has, hk, -⟩
      exact ⟨⟨id, hid, hk⟩, canTake_of_eq_ok has⟩
    · rintro ⟨⟨id, hid, hk⟩, ha⟩
      obtain ⟨as, has⟩ := (canTake_iff _).mp ha
      exact ⟨_, id, hid, as, has, hk, rfl⟩
  | enterMethod name returnType =>
    simp only [feed, enterMethod_eq_ok_iff, Context.allows, Bool.and_eq_true, not_inMember_iff,
      not_isEmpty_kinds_iff]
    constructor
    · rintro ⟨e, id, hid, hm, as, has, -⟩
      exact ⟨⟨⟨id, hid⟩, hm⟩, canTake_of_eq_ok has⟩
    · rintro ⟨⟨⟨id, hid⟩, hm⟩, ha⟩
      obtain ⟨as, has⟩ := (canTake_iff _).mp ha
      exact ⟨_, id, hid, hm, as, has, rfl⟩
  | enterConstructor =>
    simp only [feed, enterConstructor_eq_ok_iff, Context.allows, Bool.and_eq_true,
      not_inMember_iff, any_head?_kinds_iff]
    constructor
    · rintro ⟨e, id, hid, hm, as, has, hb, -⟩
      exact ⟨⟨⟨id, hid, hb⟩, hm⟩, canTake_of_eq_ok has⟩
    · rintro ⟨⟨⟨id, hid, hb⟩, hm⟩, ha⟩
      obtain ⟨as, has⟩ := (canTake_iff _).mp ha
      exact ⟨_, id, hid, hm, as, has, hb, rfl⟩
  | parameter name ty varargs =>
    simp only [feed, addParameter_eq_ok_iff, Context.allows, Bool.and_eq_true,
      not_isEmpty_kinds_iff]
    constructor
    · rintro ⟨e, id, hid, slot, hm, as, has, -⟩
      exact ⟨⟨⟨id, hid⟩, Option.isSome_iff_exists.mpr ⟨slot, hm⟩⟩, canTake_of_eq_ok has⟩
    · rintro ⟨⟨⟨id, hid⟩, hm⟩, ha⟩
      obtain ⟨slot, hs⟩ := Option.isSome_iff_exists.mp hm
      obtain ⟨as, has⟩ := (canTake_iff _).mp ha
      exact ⟨_, id, hid, slot, hs, as, has, hd.hasMember hid hs, rfl⟩
  | exitMember => simp [feed, exitMember_eq_ok_iff, Context.allows, context]

/-! ## What an accepted event makes of the context -/

/-- A change inside a declaration that keeps its kind. -/
theorem kinds_of_modifyDecl {id : Nat} {f : Declaration → Declaration}
    (hu : e.unit = d.unit.modifyDecl id f) (ho : e.openTypes = d.openTypes)
    (hf : ∀ x, (f x).kind = x.kind) : e.kinds = d.kinds := by
  unfold kinds
  rw [ho]
  refine List.map_congr_left fun i _ => ?_
  unfold bodyOf
  rw [hu, SourceUnit.decl?_modifyDecl]
  split
  · cases d.unit.decl? i with
    | none => rfl
    | some x => exact hf x
  · rfl

theorem kinds_of_addDecl {x : Declaration} (ho : d.unit.OpenChain d.openTypes)
    (hu : e.unit = d.unit.addDecl x) (ht : e.openTypes = d.unit.decls.length :: d.openTypes) :
    e.kinds = x.kind :: d.kinds := by
  unfold kinds bodyOf
  rw [ht, hu, List.map_cons, SourceUnit.decl?_addDecl, if_pos rfl]
  refine congrArg (x.kind :: ·) (List.map_congr_left fun i hi => ?_)
  rw [SourceUnit.decl?_addDecl, if_neg (Nat.ne_of_lt (ho.lt_length i hi))]
  cases d.unit.decl? i with
  | none => rfl
  | some y =>
    show (if _ then _ else y : Declaration).body.kind = y.body.kind
    split <;> rfl

/-- An accepted event changes the context as the context alone foretells. -/
theorem context_of_feed (ho : d.unit.OpenChain d.openTypes) (h : d.feed event = .ok e) :
    e.context = d.context.after event := by
  obtain ⟨effect, heffect, rfl⟩ := exists_effect_of_eq_ok h
  cases heffect with
  | package | importName =>
    exact Context.ext rfl rfl rfl (congrArg (List.map _) (List.append_nil _)) (List.append_nil _)
  | @modifier word _ hm =>
    refine Context.ext rfl rfl rfl ?_ (List.append_nil _)
    show (d.modifiers ++ (Modifier.ofKeyword? word).toList).map _ = _
    rw [hm, ← Modifier.keyword_eq_of_ofKeyword? hm]
    exact List.map_append
  | annotate => exact Context.ext rfl rfl rfl (congrArg (List.map _) (List.append_nil _)) rfl
  | enterType _ _ =>
    rw [noted_eq_drop rfl]
    refine Context.ext ((kinds_of_addDecl ho rfl rfl).trans ?_) rfl rfl rfl rfl
    exact congrArg (· :: d.kinds) (Body.kind_empty _)
  | exitType _ =>
    rw [noted_eq_drop rfl]
    exact Context.ext List.map_tail rfl rfl rfl rfl
  | @edits _ id edit _ hedit =>
    rw [noted_eq_drop hedit.not_isReport]
    have hkinds : (d.edited id edit).kinds = d.kinds :=
      kinds_of_modifyDecl rfl rfl edit.kind_apply
    cases hedit with
    | typeParam hm _ =>
      refine Context.ext hkinds rfl ?_ rfl rfl
      show some BoundSlot.ofType = some (if d.member.isSome then .ignored else .ofType)
      rw [hm]
      rfl
    | _ => exact Context.ext hkinds rfl rfl rfl rfl
  | ignoredTypeParam hm =>
    rw [noted_eq_drop rfl]
    refine Context.ext rfl rfl ?_ rfl rfl
    show some BoundSlot.ignored = some (if d.member.isSome then .ignored else .ofType)
    rw [if_pos hm]
  | importStatic | ignoredBound | exitMember =>
    rw [noted_eq_drop rfl]
    rfl

/-! ## Runs -/

theorem exists_finish_iff {strict : Bool} :
    (∃ u, d.finish strict = .ok u) ↔ d.context.isFinal strict := by
  unfold finish Context.isFinal context kinds
  cases d.openTypes with
  | cons id rest => simp
  | nil => cases strict <;> cases d.modifiers <;> cases d.annotations <;> simp

/-- The events bring a draft in order to its end exactly if its context accepts them. -/
theorem exists_feedAll_iff (hd : d.WellFormed) (strict : Bool) (events : List Event) :
    (∃ e u, d.feedAll events = .ok e ∧ e.finish strict = .ok u) ↔
      d.context.accepts strict events := by
  induction events generalizing d with
  | nil => simp [feedAll, Context.accepts, exists_finish_iff]
  | cons event events ih =>
    rw [Context.accepts, Bool.and_eq_true, ← exists_feed_iff hd.slots]
    constructor
    · rintro ⟨last, u, hall, hfinish⟩
      obtain ⟨next, hf, hrest⟩ := bind_eq_ok_iff.mp hall
      rw [← context_of_feed hd.openTypes hf]
      exact ⟨⟨next, hf⟩, (ih (hd.of_feed hf)).mp ⟨last, u, hrest, hfinish⟩⟩
    · rintro ⟨⟨next, hf⟩, hrest⟩
      rw [← context_of_feed hd.openTypes hf] at hrest
      obtain ⟨last, u, hall, hfinish⟩ := (ih (hd.of_feed hf)).mpr hrest
      exact ⟨last, u, bind_eq_ok_iff.mpr ⟨next, hf, hall⟩, hfinish⟩

end Draft

/-- Events make a unit exactly if they are allowed one after the other, from the empty context to a
final one. -/
theorem SourceUnit.exists_ofEvents_iff_accepts (strict : Bool) (events : List Event) :
    (∃ u, SourceUnit.ofEvents strict events = .ok u) ↔ Context.empty.accepts strict events := by
  simp only [SourceUnit.ofEvents_eq_ok_iff]
  rw [exists_comm]
  exact Draft.exists_feedAll_iff Draft.wellFormed_empty strict events

-- a bound of a method's type parameter is passed over, whatever it is; one of a type's is not
example : Context.empty.accepts true [.enterType .classType "A",
    .enterMethod "f" (.named [⟨"void", []⟩]), .typeParam "T",
    .typeParamBound (.named [⟨"int", []⟩]), .exitMember, .exitType] = true := by
  decide

example : Context.empty.accepts true [.enterType .classType "A", .typeParam "T",
    .typeParamBound (.named [⟨"int", []⟩]), .exitType] = false := by
  decide

end SourceModel
