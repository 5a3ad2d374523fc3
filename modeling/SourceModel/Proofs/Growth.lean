import SourceModel.Proofs.Drafts

/-!
# How declarations grow

An event, accepted or refused, begins at most one declaration and changes no other than the
innermost open type. That one only grows: its lists get longer at their end, its last type
parameter may get a bound, its last method or constructor a parameter, and its superclass may be
set (`Declaration.Grows`). Which elements are the last ones is known from the slots of the draft, so
an index is never used on an older element or on another declaration. A declaration that is closed
stays as it is, whatever comes later.
-/

namespace SourceModel

/-! ## Lists -/

/-- A list that gets longer at its end, or whose last element changes in the given way. -/
inductive GrowsAtEnd {α : Type} (change : α → α → Prop) : List α → List α → Prop where
  | append (l more : List α) : GrowsAtEnd change l (l ++ more)
  | last (front : List α) {a b : α} : change a b → GrowsAtEnd change (front ++ [a]) (front ++ [b])

section GrowsAtEnd

variable {α : Type} {change : α → α → Prop} {l : List α}

theorem isPrefix_of_eq_or {l' more : List α} (h : l' = l ∨ l' = l ++ more) : l <+: l' := by
  rcases h with rfl | rfl
  · exact List.prefix_refl _
  · exact List.prefix_append _ _

theorem growsAtEnd_refl (l : List α) : GrowsAtEnd change l l := by
  have h : GrowsAtEnd change l (l ++ []) := .append l []
  rw [List.append_nil] at h
  exact h

theorem growsAtEnd_modify {index : Nat} {f : α → α} (h : index + 1 = l.length)
    (hf : ∀ a, change a (f a)) : GrowsAtEnd change l (l.modify index f) := by
  have hlt : index < l.length := by omega
  have hdrop : l.drop (index + 1) = [] := List.drop_eq_nil_of_le (Nat.le_of_eq h.symm)
  have hl : l = l.take index ++ [l[index]] := by
    have hsplit := List.take_append_drop index l
    rw [List.drop_eq_getElem_cons hlt, hdrop] at hsplit
    exact hsplit.symm
  rw [List.modify_eq_take_cons_drop hlt, hdrop]
  conv => lhs; rw [hl]
  exact .last _ (hf _)

end GrowsAtEnd

/-! ## Declarations -/

/-- The same type parameter with one more bound. -/
def TypeParam.GetsBound (p q : TypeParam) : Prop :=
  ∃ bound, q = { p with bounds := p.bounds ++ [bound] }

/-- The same method with one more parameter. -/
def Method.GetsParam (m n : Method) : Prop :=
  ∃ param, n = { m with params := m.params ++ [param] }

/-- The same constructor with one more parameter. -/
def Constructor.GetsParam (c k : Constructor) : Prop :=
  ∃ param, k = { c with params := c.params ++ [param] }

/-- How the body of an open type may change. -/
structure Body.Grows (b c : Body) : Prop where
  kind : c.kind = b.kind
  superclass : c.superclass = b.superclass ∨ b.kind = .classType ∧ c.superclass.isSome
  fields : b.fields <+: c.fields
  constants : b.constants <+: c.constants
  constructors : GrowsAtEnd Constructor.GetsParam b.constructors c.constructors

/-- How an open type may change. -/
structure Declaration.Grows (x y : Declaration) : Prop where
  name : y.name = x.name
  kind : y.kind = x.kind
  container : y.container = x.container
  modifiers : y.modifiers = x.modifiers
  annotations : y.annotations = x.annotations
  nested : x.nested <+: y.nested
  typeParams : GrowsAtEnd TypeParam.GetsBound x.typeParams y.typeParams
  interfaces : x.interfaces <+: y.interfaces
  methods : GrowsAtEnd Method.GetsParam x.methods y.methods
  fields : x.fields <+: y.fields
  constants : x.constants <+: y.constants
  constructors : GrowsAtEnd Constructor.GetsParam x.constructors y.constructors
  superclass : y.superclass = x.superclass ∨ x.kind = .classType ∧ y.superclass.isSome

namespace Body

theorem grows_withSuperclass (b : Body) (s : NamedType) : b.Grows (b.withSuperclass s) where
  kind := kind_withSuperclass b s
  superclass := by cases b <;> first | exact .inl rfl | exact .inr ⟨rfl, rfl⟩
  fields := (fields_withSuperclass b s).symm ▸ List.prefix_refl _
  constants := (constants_withSuperclass b s).symm ▸ List.prefix_refl _
  constructors := by rw [constructors_withSuperclass]; exact growsAtEnd_refl _

theorem grows_addConstant (b : Body) (k : EnumConstant) : b.Grows (b.addConstant k) where
  kind := kind_addConstant b k
  superclass := .inl (superclass_addConstant b k)
  fields := (fields_addConstant b k).symm ▸ List.prefix_refl _
  constants := isPrefix_of_eq_or (constants_addConstant b k)
  constructors := by rw [constructors_addConstant]; exact growsAtEnd_refl _

theorem grows_addFields (b : Body) (more : List Field) : b.Grows (b.addFields more) where
  kind := kind_addFields more b
  superclass := .inl (superclass_addFields b more)
  fields := isPrefix_of_eq_or (fields_addFields b more)
  constants := (constants_addFields b more).symm ▸ List.prefix_refl _
  constructors := by rw [constructors_addFields]; exact growsAtEnd_refl _

theorem grows_mapConstructors {b : Body} {f : List Constructor → List Constructor}
    (hf : GrowsAtEnd Constructor.GetsParam b.constructors (f b.constructors)) :
    b.Grows (b.mapConstructors f) where
  kind := kind_mapConstructors f b
  superclass := .inl (superclass_mapConstructors b f)
  fields := (fields_mapConstructors b f).symm ▸ List.prefix_refl _
  constants := (constants_mapConstructors b f).symm ▸ List.prefix_refl _
  constructors := by
    rcases constructors_mapConstructors_or b f with h | h
    · rw [h]
      exact growsAtEnd_refl _
    · rw [h]
      exact hf

end Body

namespace Declaration

theorem grows_refl (x : Declaration) : x.Grows x where
  name := rfl
  kind := rfl
  container := rfl
  modifiers := rfl
  annotations := rfl
  nested := List.prefix_refl _
  typeParams := growsAtEnd_refl _
  interfaces := List.prefix_refl _
  methods := growsAtEnd_refl _
  fields := List.prefix_refl _
  constants := List.prefix_refl _
  constructors := growsAtEnd_refl _
  superclass := .inl rfl

/-- A change of the body alone. -/
theorem grows_of_body (x : Declaration) {b : Body} (h : x.body.Grows b) :
    x.Grows { x with body := b } :=
  { grows_refl x with
    kind := h.kind
    fields := h.fields
    constants := h.constants
    constructors := h.constructors
    superclass := h.superclass }

end Declaration

/-! ## Events -/

namespace Draft

variable {d e : Draft} {event : Event} {id : Nat} {x : Declaration}

/-- The slots of a draft number the last elements of the innermost open type, so that an edit
through a slot changes no other element. -/
theorem Edits.grows {edit : Edit} (hd : d.SlotsFit) (hid : d.openTypes.head? = some id)
    (hx : d.unit.decl? id = some x) (h : d.Edits id event edit) : x.Grows (edit.apply x) := by
  have hcurrent : d.current? = some x := (current?_eq hid).trans hx
  cases h with
  | typeParam _ _ => exact { x.grows_refl with typeParams := .append _ _ }
  | bound hslot _ =>
    obtain ⟨-, y, hy, hlast⟩ := hd.typeParam _ hslot
    rw [hcurrent] at hy
    cases hy
    exact { x.grows_refl with typeParams := growsAtEnd_modify hlast fun p => ⟨_, rfl⟩ }
  | superclass _ => exact x.grows_of_body (x.body.grows_withSuperclass _)
  | interface _ => exact { x.grows_refl with interfaces := List.prefix_append _ _ }
  | fields _ _ => exact x.grows_of_body (x.body.grows_addFields _)
  | constant _ => exact x.grows_of_body (x.body.grows_addConstant _)
  | component _ => exact x.grows_of_body (x.body.grows_addFields _)
  | method _ _ => exact { x.grows_refl with methods := .append _ _ }
  | constructor _ _ => exact x.grows_of_body (Body.grows_mapConstructors (.append _ _))
  | @param name ty varargs slot as hslot _ =>
    obtain ⟨y, hy, hlast⟩ := hd.member _ hslot
    rw [hcurrent] at hy
    cases hy
    cases slot with
    | method index =>
      exact { x.grows_refl with methods := growsAtEnd_modify hlast fun m => ⟨_, rfl⟩ }
    | constructor index =>
      exact x.grows_of_body (Body.grows_mapConstructors (growsAtEnd_modify hlast fun c => ⟨_, rfl⟩))

/-- What an event may do to the declarations of a draft. -/
structure GrowsTo (d : Draft) (event : Event) (e : Draft) : Prop where
  length : e.unit.decls.length = d.unit.decls.length ∨
    (∃ kind name, event = .enterType kind name) ∧
      e.unit.decls.length = d.unit.decls.length + 1
  others : ∀ id x, d.unit.decl? id = some x → d.openTypes.head? ≠ some id →
    e.unit.decl? id = some x
  innermost : ∀ id x, d.unit.decl? id = some x → d.openTypes.head? = some id →
    ∃ y, e.unit.decl? id = some y ∧ x.Grows y

theorem growsTo_of_decls_eq (h : e.unit.decls = d.unit.decls) : d.GrowsTo event e where
  length := .inl (by rw [h])
  others id x hx _ := by rw [SourceUnit.decl?, h]; exact hx
  innermost id x hx _ := ⟨x, by rw [SourceUnit.decl?, h]; exact hx, x.grows_refl⟩

theorem DeclStep.growsTo (hd : d.SlotsFit) (h : DeclStep d e event) : d.GrowsTo event e := by
  cases h with
  | same hdecls => exact growsTo_of_decls_eq hdecls
  | @begins kind name as hevent _ hunit =>
    have hdecl : ∀ id x, d.unit.decl? id = some x → e.unit.decl? id = some
        (if d.container = .type id then { x with nested := x.nested ++ [d.unit.decls.length] }
          else x) := by
      intro id x hx
      have hlt : id < d.unit.decls.length := (List.getElem?_eq_some_iff.mp hx).1
      rw [hunit, SourceUnit.decl?_addDecl, if_neg (Nat.ne_of_lt hlt), hx]
      rfl
    refine ⟨.inr ⟨⟨kind, name, hevent⟩, ?_⟩, fun id x hx hid => ?_, fun id x hx _ => ?_⟩
    · rw [hunit, SourceUnit.length_addDecl]
    · have hne : d.container ≠ .type id := by
        intro hc
        unfold container at hc
        split at hc
        · next heq =>
          cases hc
          exact hid (by rw [heq]; rfl)
        · cases hc
      rw [hdecl id x hx, if_neg hne]
    · refine ⟨_, hdecl id x hx, ?_⟩
      split
      · exact { x.grows_refl with nested := List.prefix_append _ _ }
      · exact x.grows_refl
  | @edits target edit htarget hedit hunit =>
    refine ⟨.inl ?_, fun id x hx hid => ?_, fun id x hx hid => ?_⟩
    · rw [hunit]
      exact List.length_modify ..
    · have hne : id ≠ target := by
        rintro rfl
        exact hid htarget
      rw [hunit, SourceUnit.decl?_modifyDecl, if_neg hne]
      exact hx
    · have heq : id = target := Option.some.inj (hid.symm.trans htarget)
      subst heq
      refine ⟨_, ?_, hedit.grows hd hid hx⟩
      rw [hunit, SourceUnit.decl?_modifyDecl, if_pos rfl, hx]
      rfl

theorem SlotsFit.growsTo_next (hd : d.SlotsFit) (event : Event) :
    d.GrowsTo event (d.next event) := by
  cases hf : d.feed event with
  | ok e =>
    rw [next_of_eq_ok hf]
    exact (declStep_of_eq_ok hf).growsTo hd
  | error r =>
    rw [next_of_eq_error hf]
    exact growsTo_of_decls_eq (by rw [(keeps_of_feed_eq_error hf).unit])

/-! ## Closed declarations -/

/-- Only a new declaration is opened. -/
theorem TreeStep.mem_openTypes (h : TreeStep d e) (hid : id ∈ e.openTypes) :
    id ∈ d.openTypes ∨ id = d.unit.decls.length := by
  cases h with
  | stays _ heq => exact .inl (heq ▸ hid)
  | opens _ _ _ _ heq =>
    rw [heq] at hid
    rcases List.mem_cons.mp hid with rfl | hid
    · exact .inr rfl
    · exact .inl hid
  | closes _ heq => exact .inl (List.mem_of_mem_tail (heq ▸ hid))

/-- What is closed stays as it is. -/
theorem decl?_feedOn_of_closed (hd : d.WellFormed) (hx : d.unit.decl? id = some x)
    (hid : id ∉ d.openTypes) (more : List Event) : (d.feedOn more).1.unit.decl? id = some x := by
  refine (feedOn_induction (P := fun e => e.WellFormed ∧ id ∉ e.openTypes ∧
    e.unit.decl? id = some x) (fun e event h => ?_) ⟨hd, hid, hx⟩ more).2.2
  obtain ⟨hw, hclosed, hdecl⟩ := h
  have hlt : id < e.unit.decls.length := (List.getElem?_eq_some_iff.mp hdecl).1
  refine ⟨hw.next event, fun hmem => ?_, ?_⟩
  · rcases (treeStep_next e event).mem_openTypes hmem with hopen | hnew
    · exact hclosed hopen
    · omega
  · exact (hw.slots.growsTo_next event).others id x hdecl
      fun hhead => hclosed (List.mem_of_head? hhead)

/-- In every draft that events lead to, whichever of them were refused, an event begins at most one
declaration, lets only the innermost open type grow, and leaves all other declarations as they are.
So a declaration that is closed never changes again. -/
theorem only_innermost_type_grows (events : List Event) :
    (∀ event, (empty.feedOn events).1.GrowsTo event ((empty.feedOn events).1.next event)) ∧
    ∀ id x, (empty.feedOn events).1.unit.decl? id = some x →
      id ∉ (empty.feedOn events).1.openTypes →
      ∀ more, ((empty.feedOn events).1.feedOn more).1.unit.decl? id = some x := by
  have hw := wellFormed_empty.feedOn events
  exact ⟨hw.slots.growsTo_next, fun id x hx hid => decl?_feedOn_of_closed hw hx hid⟩

end Draft

end SourceModel
