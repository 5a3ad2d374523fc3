import SourceModel.Proofs.Arena
import SourceModel.Proofs.Edits

/-!
# Drafts in order

Whatever events a draft is fed, and whichever of them are refused, it stays in order.

1. Its table of declarations is well formed.
2. The open types stand one in the other, and each is the last of the list it stands in.
3. The open member and the type parameter that waits for bounds are the last of their kind in the
   innermost open type.

Each event leaves the tree as it is, opens a type or closes one (`Draft.TreeStep`); the two parts
of the invariant, the tree and the slots, are carried along events apart from each other.
-/

namespace SourceModel

/-- The open member is the last of its kind. -/
def MemberSlot.IsLast (x : Declaration) : MemberSlot → Prop
  | .method index => index + 1 = x.methods.length
  | .constructor index => index + 1 = x.constructors.length

namespace Draft

/-- The innermost open type. -/
def current? (d : Draft) : Option Declaration :=
  d.openTypes.head?.bind d.unit.decl?

/-- An open member is the last of its kind in the innermost open type. So is the type parameter
that waits for bounds, and no member is open then; one that is passed over belongs to a member. -/
structure SlotsFit (d : Draft) : Prop where
  member : ∀ slot, d.member = some slot → ∃ x, d.current? = some x ∧ slot.IsLast x
  typeParam : ∀ index, d.typeParam = some (.ofType index) →
    d.member = none ∧ ∃ x, d.current? = some x ∧ index + 1 = x.typeParams.length
  ignored : d.typeParam = some .ignored → d.member.isSome

structure WellFormed (d : Draft) : Prop where
  unit : d.unit.WellFormed
  openTypes : d.unit.OpenChain d.openTypes
  slots : d.SlotsFit

end Draft

/-! ## Events and the tree -/

namespace Draft

variable {d e : Draft} {event : Event}

theorem container_eq (d : Draft) : d.container = .ofStack d.openTypes := by
  unfold container Container.ofStack
  cases d.openTypes <;> rfl

/-- What an event does to the tree. -/
inductive TreeStep (d e : Draft) : Prop where
  | stays : d.unit.SameTree e.unit → e.openTypes = d.openTypes → TreeStep d e
  | opens (x : Declaration) : x.nested = [] → x.container = .ofStack d.openTypes →
      e.unit = d.unit.addDecl x → e.openTypes = d.unit.decls.length :: d.openTypes → TreeStep d e
  | closes : e.unit = d.unit → e.openTypes = d.openTypes.tail → TreeStep d e

theorem treeStep_of_eq_ok (h : d.feed event = .ok e) : TreeStep d e := by
  obtain ⟨effect, heffect, rfl⟩ := exists_effect_of_eq_ok h
  cases effect with
  | opens x =>
    cases heffect with
    | enterType _ _ => exact .opens _ rfl (container_eq d) (unit_noted rfl) rfl
  | closes =>
    cases heffect with
    | exitType _ => exact .closes (unit_noted rfl) rfl
  | edits id edit =>
    have htree := SourceUnit.sameTree_modifyDecl d.unit id edit.container_apply edit.nested_apply
    cases heffect with
    | edits _ hedit => exact .stays (unit_noted hedit.not_isReport ▸ htree) rfl
  | _ => exact .stays (SourceUnit.sameTree_of_eq rfl rfl) rfl

theorem Keeps.treeStep (h : d.Keeps e) : TreeStep d e :=
  .stays (SourceUnit.sameTree_of_eq (by rw [h.unit]) (by rw [h.unit])) h.openTypes

theorem TreeStep.wellFormed (h : TreeStep d e) (hu : d.unit.WellFormed)
    (ho : d.unit.OpenChain d.openTypes) : e.unit.WellFormed ∧ e.unit.OpenChain e.openTypes := by
  cases h with
  | stays hs heq => exact ⟨hs.wellFormed hu, heq ▸ hs.openChain ho⟩
  | opens x hn hx hunit heq =>
    rw [hunit, heq]
    exact ⟨hu.addDecl hn (ho.parent_lt_length hx), ho.open hu hn hx⟩
  | closes hunit heq =>
    rw [hunit, heq]
    exact ⟨hu, ho.tail⟩

/-! ## Events and the slots -/

/-- Two declarations with as many type parameters, methods and constructors. -/
structure SameCounts (x y : Declaration) : Prop where
  typeParams : y.typeParams.length = x.typeParams.length
  methods : y.methods.length = x.methods.length
  constructors : y.constructors.length = x.constructors.length

theorem SameCounts.isLast {x y : Declaration} (h : SameCounts x y) {slot : MemberSlot}
    (hs : slot.IsLast x) : slot.IsLast y := by
  cases slot with
  | method index => exact hs.trans h.methods.symm
  | constructor index => exact hs.trans h.constructors.symm

theorem current?_eq {id : Nat} (h : d.openTypes.head? = some id) :
    d.current? = d.unit.decl? id := by
  unfold current?
  rw [h]
  rfl

theorem exists_current (ho : d.unit.OpenChain d.openTypes) {id : Nat}
    (h : d.openTypes.head? = some id) : ∃ x, d.unit.decl? id = some x ∧ d.current? = some x := by
  have hlt := ho.lt_length id (List.mem_of_head? h)
  have hx : d.unit.decl? id = some d.unit.decls[id] := List.getElem?_eq_getElem hlt
  exact ⟨_, hx, (current?_eq h).trans hx⟩

theorem current?_of_modifyDecl {id : Nat} {f : Declaration → Declaration} {x : Declaration}
    (hu : e.unit = d.unit.modifyDecl id f) (ho : e.openTypes = d.openTypes)
    (hid : d.openTypes.head? = some id) (hx : d.unit.decl? id = some x) :
    e.current? = some (f x) := by
  unfold current?
  rw [ho, hid, hu]
  show (d.unit.modifyDecl id f).decl? id = some (f x)
  rw [SourceUnit.decl?_modifyDecl, if_pos rfl, hx]
  rfl

/-- Slots that stay fit as long as the innermost open type keeps its counts. -/
theorem SlotsFit.of_sameCounts (hd : d.SlotsFit) (hm : e.member = d.member)
    (ht : e.typeParam = d.typeParam)
    (hc : ∀ x, d.current? = some x → ∃ y, e.current? = some y ∧ SameCounts x y) : e.SlotsFit where
  member slot hs := by
    obtain ⟨x, hx, hl⟩ := hd.member slot (hm ▸ hs)
    obtain ⟨y, hy, hxy⟩ := hc x hx
    exact ⟨y, hy, hxy.isLast hl⟩
  typeParam index hs := by
    obtain ⟨hnone, x, hx, hl⟩ := hd.typeParam index (ht ▸ hs)
    obtain ⟨y, hy, hxy⟩ := hc x hx
    exact ⟨hm ▸ hnone, y, hy, hl.trans hxy.typeParams.symm⟩
  ignored hs := hm ▸ hd.ignored (ht ▸ hs)

theorem SlotsFit.of_eq (hd : d.SlotsFit) (hm : e.member = d.member)
    (ht : e.typeParam = d.typeParam) (hc : e.current? = d.current?) : e.SlotsFit :=
  hd.of_sameCounts hm ht fun x hx => ⟨x, hc.trans hx, rfl, rfl, rfl⟩

/-- A change of the innermost open type that keeps its counts. -/
theorem SlotsFit.of_modifyDecl (hd : d.SlotsFit) {id : Nat} {f : Declaration → Declaration}
    (hu : e.unit = d.unit.modifyDecl id f) (ho : e.openTypes = d.openTypes)
    (hm : e.member = d.member) (ht : e.typeParam = d.typeParam)
    (hid : d.openTypes.head? = some id)
    (hf : ∀ x, SameCounts x (f x)) : e.SlotsFit := by
  refine hd.of_sameCounts hm ht fun x hx => ?_
  have hx' : d.unit.decl? id = some x := (current?_eq hid).symm.trans hx
  exact ⟨f x, current?_of_modifyDecl hu ho hid hx', hf x⟩

theorem slotsFit_of_none (hm : d.member = none) (ht : d.typeParam = none) : d.SlotsFit where
  member slot hs := by rw [hm] at hs; cases hs
  typeParam index hs := by rw [ht] at hs; cases hs
  ignored hs := by rw [ht] at hs; cases hs

/-- A member that has just begun is the last of its kind. -/
theorem slotsFit_of_member {slot : MemberSlot} {x : Declaration} (hm : d.member = some slot)
    (ht : d.typeParam = none) (hx : d.current? = some x) (hl : slot.IsLast x) : d.SlotsFit where
  member s hs := by
    rw [hm] at hs
    cases hs
    exact ⟨x, hx, hl⟩
  typeParam index hs := by rw [ht] at hs; cases hs
  ignored hs := by rw [ht] at hs; cases hs

/-- An edit keeps the counts, or the slot that it makes is the last of its kind. -/
theorem SlotsFit.edited (hd : d.SlotsFit) (ho : d.unit.OpenChain d.openTypes) {id : Nat}
    {edit : Edit} (hid : d.openTypes.head? = some id) (h : d.Edits id event edit) :
    (d.edited id edit).SlotsFit := by
  obtain ⟨x, hx, -⟩ := exists_current ho hid
  have hcur : (d.edited id edit).current? = some (edit.apply x) :=
    current?_of_modifyDecl rfl rfl hid hx
  cases h with
  | typeParam hm _ =>
    refine ⟨fun slot hs => ?_, fun index hs => ⟨hm, _, hcur, ?_⟩, fun hs => by cases hs⟩
    · cases hm.symm.trans hs
    · cases hs
      simp [Edit.apply, hx]
  | method _ _ =>
    refine slotsFit_of_member rfl rfl hcur ?_
    simp [MemberSlot.IsLast, Edit.apply, hx]
  | constructor _ hb _ =>
    refine slotsFit_of_member rfl rfl hcur ?_
    rw [bodyOf_eq hx] at hb ⊢
    simp [MemberSlot.IsLast, Declaration.constructors, Edit.apply,
      Body.constructors_mapConstructors hb]
  | bound _ _ =>
    exact hd.of_modifyDecl rfl rfl rfl rfl hid fun x => ⟨List.length_modify .., rfl, rfl⟩
  | superclass _ =>
    exact hd.of_modifyDecl rfl rfl rfl rfl hid fun x =>
      ⟨rfl, rfl, congrArg _ (x.body.constructors_withSuperclass _)⟩
  | interface _ => exact hd.of_modifyDecl rfl rfl rfl rfl hid fun x => ⟨rfl, rfl, rfl⟩
  | fields _ _ | component _ =>
    exact hd.of_modifyDecl rfl rfl rfl rfl hid fun x =>
      ⟨rfl, rfl, congrArg _ (x.body.constructors_addFields _)⟩
  | constant _ =>
    exact hd.of_modifyDecl rfl rfl rfl rfl hid fun x =>
      ⟨rfl, rfl, congrArg _ (x.body.constructors_addConstant _)⟩
  | @param _ _ _ slot _ _ _ =>
    refine hd.of_modifyDecl rfl rfl rfl rfl hid fun x => ?_
    cases slot with
    | method index => exact ⟨rfl, List.length_modify .., rfl⟩
    | constructor index =>
      exact ⟨rfl, rfl, x.body.length_constructors_mapConstructors fun _ => List.length_modify ..⟩

theorem SlotsFit.of_eq_ok (hd : d.SlotsFit) (ho : d.unit.OpenChain d.openTypes)
    (h : d.feed event = .ok e) : e.SlotsFit := by
  obtain ⟨effect, heffect, rfl⟩ := exists_effect_of_eq_ok h
  have hnoted {x : Draft} (hx : x.SlotsFit) : (x.noted event).SlotsFit := hx.of_eq rfl rfl rfl
  apply hnoted
  cases effect with
  | nothing => exact hd
  | opens x =>
    cases heffect with
    | enterType hm _ => exact slotsFit_of_none hm rfl
  | closes =>
    cases heffect with
    | exitType hm => exact slotsFit_of_none hm rfl
  | edits id edit =>
    cases heffect with
    | edits hid hedit => exact hd.edited ho hid hedit
  | passesOver =>
    cases heffect with
    | ignoredTypeParam hm => exact ⟨hd.member, fun index hs => (by cases hs), fun _ => hm⟩
  | endsMember => exact slotsFit_of_none rfl rfl

theorem Keeps.current? (h : d.Keeps e) : e.current? = d.current? := by
  unfold Draft.current?
  rw [h.openTypes, h.unit]

/-! ## Runs -/

/-- The draft that an event leaves, whether it is accepted or refused. -/
def next (d : Draft) (event : Event) : Draft :=
  match d.feed event with
  | .ok e => e
  | .error r => r.draft

theorem next_of_eq_ok (h : d.feed event = .ok e) : d.next event = e := by
  unfold next
  rw [h]

theorem next_of_eq_error {r : Refusal} (h : d.feed event = .error r) : d.next event = r.draft := by
  unfold next
  rw [h]

theorem feedOn_cons (d : Draft) (event : Event) (events : List Event) :
    (d.feedOn (event :: events)).1 = ((d.next event).feedOn events).1 := by
  unfold next
  rw [feedOn]
  cases d.feed event <;> rfl

/-- What holds at the start and is kept by every event, accepted or refused, holds after any
events. -/
theorem feedOn_induction {P : Draft → Prop} (step : ∀ d event, P d → P (d.next event))
    {d : Draft} (h : P d) (events : List Event) : P (d.feedOn events).1 := by
  induction events generalizing d with
  | nil => exact h
  | cons event events ih =>
    rw [feedOn_cons]
    exact ih (step d event h)

theorem treeStep_next (d : Draft) (event : Event) : TreeStep d (d.next event) := by
  unfold next
  cases hf : d.feed event with
  | ok e => exact treeStep_of_eq_ok hf
  | error r => exact (keeps_of_feed_eq_error hf).treeStep

theorem WellFormed.next (h : d.WellFormed) (event : Event) : (d.next event).WellFormed := by
  obtain ⟨hu, ho⟩ := (treeStep_next d event).wellFormed h.unit h.openTypes
  refine ⟨hu, ho, ?_⟩
  unfold Draft.next
  cases hf : d.feed event with
  | ok e => exact h.slots.of_eq_ok h.openTypes hf
  | error r =>
    have hk := keeps_of_feed_eq_error hf
    exact h.slots.of_eq hk.member hk.typeParam hk.current?

theorem WellFormed.of_feed (h : d.WellFormed) (hf : d.feed event = .ok e) : e.WellFormed := by
  rw [← next_of_eq_ok hf]
  exact h.next event

theorem WellFormed.feedOn (h : d.WellFormed) (events : List Event) :
    (d.feedOn events).1.WellFormed :=
  feedOn_induction (fun _ event h => h.next event) h events

theorem wellFormed_empty : empty.WellFormed :=
  ⟨SourceUnit.wellFormed_empty, .nil, slotsFit_of_none rfl rfl⟩

/-- Whatever events a new draft is fed, and whichever of them are refused, its table is in order:
declarations come after those around them, every container lists what stands in it, the open types
form a chain of last entries, and the slots are the last of their kind. -/
theorem wellFormed_of_events (events : List Event) : (empty.feedOn events).1.WellFormed :=
  wellFormed_empty.feedOn events

end Draft

end SourceModel
