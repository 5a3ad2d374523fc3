import SourceModel.Proofs.Edits
import SourceModel.Proofs.Preorder
import SourceModel.Proofs.WrittenUnits

/-!
# Written units are rebuilt from their events

The events of a well-formed written unit are accepted, and the unit that comes of them has the
trees that the written unit stands for.

1. Between two parts of a type nothing waits and no member is open: such a draft is told by its
   unit and its open types, whatever type parameter may still wait for bounds (`Draft.between`,
   `Draft.Leads`).
2. A part other than a type changes the innermost open type only (`Clause.leads`).
3. A type, with all types nested in it, takes the next places in the table and goes to the end of
   the list in which it stands; what was open before is open again (`WrittenDecl.leads`).
4. A table that is filled in this way has the trees that filled it (`SourceUnit.tree?_eq_of_holds`).
-/

namespace SourceModel

/-! ## Declarations with more parts -/

section Lists

variable {α : Type}

theorem modify_append_left {l m : List α} {i : Nat} (h : i < l.length) (f : α → α) :
    (l ++ m).modify i f = l.modify i f ++ m := by
  induction l generalizing i with
  | nil => exact absurd h (Nat.not_lt_zero i)
  | cons a l ih =>
    cases i with
    | zero => rfl
    | succ i =>
      rw [List.cons_append, List.modify_succ_cons, List.modify_succ_cons,
        ih (Nat.lt_of_succ_lt_succ h), List.cons_append]

theorem modify_length_append (l m : List α) (a : α) (f : α → α) :
    (l ++ a :: m).modify l.length f = l ++ f a :: m := by
  induction l with
  | nil => rfl
  | cons b l ih => rw [List.cons_append, List.length_cons, List.modify_succ_cons, ih]; rfl

end Lists

namespace Declaration

variable (x : Declaration) (a b : Contents)

@[simp] theorem kind_add : (x.add a).kind = x.kind := by
  show (x.body.add a).kind = x.body.kind
  cases x.body <;> rfl

theorem body_add_append (body : Body) : body.add (a ++ b) = (body.add a).add b := by
  cases body <;> simp [Body.add, Contents.append_def, List.getLast?_append, Option.or_assoc]

theorem add_append : x.add (a ++ b) = (x.add a).add b := by
  unfold add
  rw [body_add_append]
  simp [Contents.append_def]

theorem add_empty : x.add .empty = x := by
  unfold add
  cases h : x.body <;> simp [Body.add, Contents.empty, ← h]

/-! ### Parts of one sort -/

theorem add_typeParams (params : List TypeParam) :
    x.add { Contents.empty with typeParams := params } =
      { x with typeParams := x.typeParams ++ params } := by
  unfold add
  cases x.body <;> simp [Body.add, Contents.empty]

theorem add_interfaces (interfaces : List NamedType) :
    x.add { Contents.empty with interfaces } =
      { x with interfaces := x.interfaces ++ interfaces } := by
  unfold add
  cases x.body <;> simp [Body.add, Contents.empty]

theorem add_methods (methods : List Method) :
    x.add { Contents.empty with methods } = { x with methods := x.methods ++ methods } := by
  unfold add
  cases x.body <;> simp [Body.add, Contents.empty]

theorem add_fields (fields : List Field) :
    x.add { Contents.empty with fields } = { x with body := x.body.addFields fields } := by
  unfold add
  cases x.body <;> simp [Body.add, Body.addFields, Contents.empty]

theorem add_constructors (constructors : List Constructor) :
    x.add { Contents.empty with constructors } =
      { x with body := x.body.mapConstructors (· ++ constructors) } := by
  unfold add
  cases x.body <;> simp [Body.add, Body.mapConstructors, Contents.empty]

theorem add_superclass (s : NamedType) :
    x.add { Contents.empty with superclasses := [s] } =
      { x with body := x.body.withSuperclass s } := by
  unfold add
  cases x.body <;> simp [Body.add, Body.withSuperclass, Contents.empty]

theorem add_constant (k : EnumConstant) :
    x.add { Contents.empty with constants := [k] } = { x with body := x.body.addConstant k } := by
  unfold add
  cases x.body <;> simp [Body.add, Body.addConstant, Contents.empty]

theorem add_types (types : List DeclTree) :
    x.add { Contents.empty with types } = { x with nested := x.nested ++ types.map (·.id) } := by
  unfold add
  cases x.body <;> simp [Body.add, Contents.empty]

end Declaration

/-! ## Units with more parts -/

namespace SourceUnit

variable {u : SourceUnit} {id : Nat} {x : Declaration}

/-- The unit with one declaration replaced. -/
def put (u : SourceUnit) (id : Nat) (x : Declaration) : SourceUnit :=
  u.modifyDecl id fun _ => x

theorem modifyDecl_put (u : SourceUnit) (id : Nat) (x : Declaration)
    (f : Declaration → Declaration) : (u.put id x).modifyDecl id f = u.put id (f x) := by
  unfold put modifyDecl
  rw [List.modify_modify_eq]
  rfl

theorem decl?_put (h : id < u.decls.length) (x : Declaration) :
    (u.put id x).decl? id = some x := by
  unfold put
  rw [decl?_modifyDecl, if_pos rfl, decl?, List.getElem?_eq_getElem h]
  rfl

theorem modifyDecl_eq_put (h : u.decl? id = some x) (f : Declaration → Declaration) :
    u.modifyDecl id f = u.put id (f x) := by
  refine modifyDecl_congr fun y hy => ?_
  cases h.symm.trans hy
  rfl

theorem put_self (h : u.decl? id = some x) : u.put id x = u := by
  rw [← modifyDecl_eq_put (f := fun y => y) h]
  unfold modifyDecl
  have hid : u.decls.modify id (fun y => y) = u.decls := List.modify_id id u.decls
  rw [hid]

/-- The unit with more parts of the declaration `id`: those nested in it take the next places. -/
def extend (u : SourceUnit) (id : Nat) (c : Contents) : SourceUnit :=
  { u with
    decls := u.decls.modify id (·.add c) ++ (DeclTree.preorderList c.types).map (·.2) }

/-- The unit with one more tree in the given container. -/
def place (u : SourceUnit) (tree : DeclTree) : Container → SourceUnit
  | .unit => { u with
      decls := u.decls ++ tree.preorder.map (·.2), topLevel := u.topLevel ++ [tree.id] }
  | .type id => u.extend id { Contents.empty with types := [tree] }

theorem length_extend (u : SourceUnit) (id : Nat) (c : Contents) :
    (u.extend id c).decls.length = u.decls.length + c.typeCount := by
  simp [extend, Contents.typeCount]

theorem decl?_extend (h : u.decl? id = some x) (c : Contents) :
    (u.extend id c).decl? id = some (x.add c) := by
  have hlt : id < u.decls.length := (List.getElem?_eq_some_iff.mp h).1
  have hlen : id < (u.decls.modify id (·.add c)).length := by
    rw [List.length_modify]
    exact hlt
  have hx : (u.modifyDecl id (·.add c)).decl? id = some (x.add c) := by
    rw [decl?_modifyDecl, if_pos rfl, h]
    rfl
  unfold extend decl?
  rw [List.getElem?_append_left hlen]
  exact hx

theorem extend_extend (h : id < u.decls.length) (a b : Contents) :
    (u.extend id a).extend id b = u.extend id (a ++ b) := by
  have hlen : id < (u.decls.modify id (·.add a)).length := by
    rw [List.length_modify]
    exact h
  have hadd : (·.add b) ∘ (·.add a) = (Declaration.add · (a ++ b)) := by
    funext x
    exact (x.add_append a b).symm
  unfold extend
  dsimp only
  rw [modify_append_left hlen, List.modify_modify_eq, hadd, List.append_assoc, ← List.map_append,
    ← DeclTree.preorderList_append]
  rfl

theorem extend_of_types_eq_nil {c : Contents} (h : u.decl? id = some x) (hc : c.types = []) :
    u.extend id c = u.put id (x.add c) := by
  rw [← modifyDecl_eq_put (f := (·.add c)) h, extend, hc]
  show { u with decls := _ ++ [] } = _
  rw [List.append_nil]
  rfl

theorem extend_empty (h : u.decl? id = some x) : u.extend id .empty = u := by
  rw [extend_of_types_eq_nil h rfl, x.add_empty, put_self h]

/-- A declaration with parts of its own is placed as a tree. -/
theorem extend_addDecl (u : SourceUnit) (x : Declaration) (c : Contents) :
    (u.addDecl x).extend u.decls.length c =
      u.place (.node u.decls.length (x.add c) c.types) x.container := by
  unfold addDecl extend
  cases x.container with
  | unit =>
    simp only [place, DeclTree.preorder, DeclTree.id, List.map_cons]
    rw [modify_length_append, List.append_assoc]
    rfl
  | type parent =>
    have hnested : (Declaration.add · { Contents.empty with
          types := [.node u.decls.length (x.add c) c.types] }) =
        fun p => { p with nested := p.nested ++ [u.decls.length] } := by
      funext p
      exact p.add_types _
    simp only [place, extend, DeclTree.preorder, DeclTree.preorderList, List.map_cons,
      List.append_nil, hnested]
    have hlen : (u.decls.modify parent fun p =>
        { p with nested := p.nested ++ [u.decls.length] }).length = u.decls.length :=
      List.length_modify ..
    have hmodify := modify_length_append (u.decls.modify parent fun p =>
      { p with nested := p.nested ++ [u.decls.length] }) [] x (·.add c)
    rw [hlen] at hmodify
    rw [hmodify, List.append_assoc]
    rfl

end SourceUnit

/-! ## Runs -/

theorem Modifier.ofKeyword?_keyword (m : Modifier) : ofKeyword? m.keyword = some m := by
  cases m <;> decide

namespace Draft

variable {d e : Draft} {event : Event} {events : List Event}

theorem feedAll_cons (h : d.feed event = .ok e) :
    d.feedAll (event :: events) = e.feedAll events := by
  rw [feedAll, h]
  rfl

theorem feedAll_append {more : List Event} (h : d.feedAll events = .ok e) :
    d.feedAll (events ++ more) = e.feedAll more := by
  induction events generalizing d with
  | nil =>
    cases h
    rfl
  | cons event events ih =>
    obtain ⟨next, hf, hrest⟩ := bind_eq_ok_iff.mp h
    rw [List.cons_append, feedAll_cons hf]
    exact ih hrest

/-- A draft between two declarations: nothing waits, and no member is open. -/
def between (u : SourceUnit) (ids : List Nat) (slot : Option TypeParamSlot) : Draft :=
  ⟨u, [], [], ids, none, slot⟩

/-- The events are accepted and lead from one place between declarations to another. A type
parameter that still waits for bounds there is of no account. -/
def Leads (u : SourceUnit) (ids : List Nat) (events : List Event) (v : SourceUnit)
    (ids' : List Nat) : Prop :=
  ∀ slot, ∃ slot', (between u ids slot).feedAll events = .ok (between v ids' slot')

section Leads

variable {u v w : SourceUnit} {ids ids' ids'' : List Nat}

theorem leads_nil (u : SourceUnit) (ids : List Nat) : Leads u ids [] u ids :=
  fun slot => ⟨slot, rfl⟩

theorem Leads.append {more : List Event} (h : Leads u ids events v ids')
    (hmore : Leads v ids' more w ids'') : Leads u ids (events ++ more) w ids'' := by
  intro slot
  obtain ⟨mid, hmid⟩ := h slot
  obtain ⟨last, hlast⟩ := hmore mid
  exact ⟨last, (feedAll_append hmid).trans hlast⟩

end Leads

section Marks

variable {u : SourceUnit} {ids : List Nat} {member : Option MemberSlot}
  {slot : Option TypeParamSlot}

theorem feedAll_marks_after (modifiers : List Modifier) (annotations : List WrittenAnnotationUse)
    (marks : List Mark) (events : List Event) :
    Draft.feedAll ⟨u, modifiers, annotations, ids, member, slot⟩ (marks.map Mark.event ++ events) =
      Draft.feedAll ⟨u, modifiers ++ Mark.modifiers marks, annotations ++ Mark.annotations marks,
        ids, member, slot⟩ events := by
  induction marks generalizing modifiers annotations with
  | nil =>
    show _ = Draft.feedAll ⟨u, modifiers ++ [], annotations ++ [], ids, member, slot⟩ events
    rw [List.append_nil, List.append_nil]
    rfl
  | cons mark marks ih =>
    cases mark with
    | modifier m =>
      have hm : Draft.feed ⟨u, modifiers, annotations, ids, member, slot⟩ (.modifier m.keyword) =
          .ok ⟨u, modifiers ++ [m], annotations, ids, member, slot⟩ :=
        addModifier_eq_ok_iff.mpr ⟨m, m.ofKeyword?_keyword, rfl⟩
      show Draft.feedAll _ (.modifier m.keyword :: (marks.map Mark.event ++ events)) = _
      rw [feedAll_cons hm, ih, List.append_assoc]
      rfl
    | annotate use =>
      show Draft.feedAll ⟨u, modifiers, annotations ++ [use], ids, member, slot⟩
        (marks.map Mark.event ++ events) = _
      rw [ih, List.append_assoc]
      rfl

/-- Modifiers and annotations wait, in whatever order they come. -/
theorem feedAll_marks (marks : List Mark) (events : List Event) :
    Draft.feedAll ⟨u, [], [], ids, member, slot⟩ (marks.map Mark.event ++ events) =
      Draft.feedAll ⟨u, Mark.modifiers marks, Mark.annotations marks, ids, member, slot⟩ events :=
  feedAll_marks_after [] [] marks events

theorem feedAll_annotations (modifiers : List Modifier)
    (annotations uses : List WrittenAnnotationUse) (events : List Event) :
    Draft.feedAll ⟨u, modifiers, annotations, ids, member, slot⟩ (uses.map .annotate ++ events) =
      Draft.feedAll ⟨u, modifiers, annotations ++ uses, ids, member, slot⟩ events := by
  induction uses generalizing annotations with
  | nil => rw [List.append_nil]; rfl
  | cons use uses ih =>
    show Draft.feedAll ⟨u, modifiers, annotations ++ [use], ids, member, slot⟩
      (uses.map .annotate ++ events) = _
    rw [ih, List.append_assoc]
    rfl

end Marks

/-! ## Parts other than types -/

section Parts

variable {u : SourceUnit} {id : Nat} {ids : List Nat} {x : Declaration}

/-- The bounds go to the type parameter that comes last. -/
theorem feedAll_bounds (hlt : id < u.decls.length) (p : TypeParam) {bounds : List WrittenType}
    {read : List NamedType} (h : bounds.mapM (readNamed (.type id)) = some read) :
    (between (u.put id { x with typeParams := x.typeParams ++ [p] }) (id :: ids)
        (some (.ofType x.typeParams.length))).feedAll (bounds.map .typeParamBound) =
      .ok (between (u.put id { x with
        typeParams := x.typeParams ++ [{ p with bounds := p.bounds ++ read }] }) (id :: ids)
        (some (.ofType x.typeParams.length))) := by
  induction bounds generalizing p read with
  | nil =>
    obtain rfl := mapM_nil_eq_some_iff.mp h
    rw [List.append_nil]
    rfl
  | cons b bounds ih =>
    obtain ⟨n, hn, rest, hrest, rfl⟩ := mapM_cons_eq_some_iff.mp h
    have hb : (between (u.put id { x with typeParams := x.typeParams ++ [p] }) (id :: ids)
          (some (.ofType x.typeParams.length))).feed (.typeParamBound b) =
        .ok (between (u.put id { x with
          typeParams := x.typeParams ++ [{ p with bounds := p.bounds ++ [n] }] }) (id :: ids)
          (some (.ofType x.typeParams.length))) := by
      refine addTypeParamBound_eq_ok_iff.mpr ⟨id, rfl, .inr ⟨x.typeParams.length, rfl, n,
        readNamed_eq_some_iff.mp hn, ?_, ?_⟩⟩
      · simp [hasTypeParam, between, SourceUnit.decl?_put hlt]
      · show between ((u.put id _).modifyDecl id _) _ _ = _
        rw [SourceUnit.modifyDecl_put]
        simp only [modify_length_append]
        rfl
    rw [List.map_cons, feedAll_cons hb, ih _ hrest]
    simp only [List.append_assoc, List.singleton_append]

theorem fieldsOf_eq_ok {modifiers : List Modifier} {annotations : List AnnotationUse} {ty : Ty}
    {declarators : List Declarator} {fields : List Field}
    (h : declarators.mapM (Declarator.read id modifiers annotations ty) = some fields) :
    fieldsOf (.type id) modifiers annotations ty declarators = .ok fields := by
  induction declarators generalizing fields with
  | nil =>
    obtain rfl := mapM_nil_eq_some_iff.mp h
    rfl
  | cons v vs ih =>
    obtain ⟨field, hfield, rest, hrest, rfl⟩ := mapM_cons_eq_some_iff.mp h
    obtain ⟨value, hvalue, rfl⟩ := Declarator.read_eq_some_iff.mp hfield
    refine fieldsOf_cons_eq_ok_iff.mpr ⟨value, ?_, rest, ih hrest, rfl⟩
    unfold initialValue
    cases hv : v.initializer with
    | none =>
      rw [hv] at hvalue
      cases hvalue
      rfl
    | some leaves =>
      rw [hv, Option.mapM_some] at hvalue
      obtain ⟨e, he, rfl⟩ := Option.map_eq_some_iff.mp hvalue
      exact map_eq_ok_iff.mpr ⟨e, toOption_eq_some_iff.mp he, rfl⟩

/-- The parameters go to the open member, which comes last; `g` tells the declaration from the
parameters that the member has. -/
theorem feedAll_params (hlt : id < u.decls.length) {member : MemberSlot}
    {slot : Option TypeParamSlot} {g : List Parameter → Declaration}
    (hlast : ∀ ps, member.IsLast (g ps))
    (happly : ∀ ps p, (Edit.param member p).apply (g ps) = g (ps ++ [p]))
    {written : List WrittenParameter} {read : List Parameter}
    (h : written.mapM (WrittenParameter.read id) = some read) (ps : List Parameter) :
    Draft.feedAll ⟨u.put id (g ps), [], [], id :: ids, some member, slot⟩
        (written.flatMap WrittenParameter.events) =
      .ok ⟨u.put id (g (ps ++ read)), [], [], id :: ids, some member, slot⟩ := by
  induction written generalizing ps read with
  | nil =>
    obtain rfl := mapM_nil_eq_some_iff.mp h
    rw [List.append_nil]
    rfl
  | cons p written ih =>
    obtain ⟨param, hparam, rest, hrest, rfl⟩ := mapM_cons_eq_some_iff.mp h
    obtain ⟨as, has, rfl⟩ := WrittenParameter.read_eq_some_iff.mp hparam
    have hfeed : Draft.feed ⟨u.put id (g ps), Mark.modifiers p.marks, Mark.annotations p.marks,
          id :: ids, some member, slot⟩ (.parameter p.name p.ty p.varargs) =
        .ok ⟨u.put id (g (ps ++ [⟨p.name, Mark.modifiers p.marks, as,
          (Ty.ofWritten (.type id) p.ty).arrayOf (if p.varargs then 1 else 0), p.varargs⟩])),
          [], [], id :: ids, some member, slot⟩ := by
      refine addParameter_eq_ok_iff.mpr ⟨id, rfl, member, rfl, as, readUses_eq_some_iff.mp has,
        hasMember_of_isLast (SourceUnit.decl?_put hlt (g ps)) (hlast ps), ?_⟩
      rw [← happly, ← SourceUnit.modifyDecl_put]
      cases member <;> rfl
    rw [List.flatMap_cons, WrittenParameter.events, List.append_assoc, feedAll_marks,
      List.singleton_append, feedAll_cons hfeed, ih hrest, List.append_assoc]
    rfl

theorem cleared_modifyDecl_put (modifiers : List Modifier)
    (annotations : List WrittenAnnotationUse) (slot : Option TypeParamSlot)
    (f : Declaration → Declaration) :
    (Draft.cleared ⟨u.put id x, modifiers, annotations, ids, none, slot⟩).modifyDecl id f =
      between (u.put id (f x)) ids slot := by
  show between ((u.put id x).modifyDecl id f) ids slot = _
  rw [SourceUnit.modifyDecl_put]

/-- A part that one event reports, with what waits for it. -/
theorem leads_of_feed (marks : List Mark) {event : Event} {y : Declaration}
    (h : ∀ slot, Draft.feed ⟨u.put id x, Mark.modifiers marks, Mark.annotations marks, id :: ids,
      none, slot⟩ event = .ok (between (u.put id y) (id :: ids) slot)) :
    Leads (u.put id x) (id :: ids) (marks.map Mark.event ++ [event]) (u.put id y) (id :: ids) := by
  intro slot
  refine ⟨slot, ?_⟩
  rw [between, feedAll_marks, feedAll_cons (h slot)]
  rfl

theorem leads_typeParam (hlt : id < u.decls.length) {uses : List WrittenAnnotationUse}
    {as : List AnnotationUse} {name : String} {bounds : List WrittenType} {read : List NamedType}
    (has : readUses id uses = some as) (h : bounds.mapM (readNamed (.type id)) = some read) :
    Leads (u.put id x) (id :: ids) (Clause.typeParam uses name bounds).events
      (u.put id { x with typeParams := x.typeParams ++ [⟨name, as, read⟩] }) (id :: ids) := by
  intro slot
  refine ⟨some (.ofType x.typeParams.length), ?_⟩
  have hfeed : Draft.feed ⟨u.put id x, [], uses, id :: ids, none, slot⟩ (.typeParam name) =
      .ok (between (u.put id { x with typeParams := x.typeParams ++ [⟨name, as, []⟩] }) (id :: ids)
        (some (.ofType x.typeParams.length))) := by
    refine addTypeParam_eq_ok_iff.mpr ⟨id, rfl, as, readUses_eq_some_iff.mp has, ?_⟩
    show Draft.mk ((u.put id x).modifyDecl id _) [] [] (id :: ids) none
      (some (.ofType ((((u.put id x).decl? id).map (·.typeParams.length)).getD 0))) = _
    rw [SourceUnit.modifyDecl_put, SourceUnit.decl?_put hlt]
    rfl
  rw [Clause.events, between, feedAll_annotations, List.nil_append, feedAll_cons hfeed]
  exact feedAll_bounds hlt ⟨name, as, []⟩ h

theorem leads_method (hlt : id < u.decls.length) {marks : List Mark} {as : List AnnotationUse}
    {name : String} {returnType : WrittenType} {params : List WrittenParameter}
    {read : List Parameter} (has : readUses id (Mark.annotations marks) = some as)
    (h : params.mapM (WrittenParameter.read id) = some read) :
    Leads (u.put id x) (id :: ids) (Clause.method marks name returnType params).events
      (u.put id { x with methods := x.methods ++ [⟨name, Mark.modifiers marks, as,
        Ty.ofWritten (.type id) returnType, read⟩] }) (id :: ids) := by
  intro slot
  refine ⟨none, ?_⟩
  let g (ps : List Parameter) : Declaration := { x with methods := x.methods ++
    [⟨name, Mark.modifiers marks, as, Ty.ofWritten (.type id) returnType, ps⟩] }
  have henter : Draft.feed ⟨u.put id x, Mark.modifiers marks, Mark.annotations marks, id :: ids,
        none, slot⟩ (.enterMethod name returnType) =
      .ok ⟨u.put id (g []), [], [], id :: ids, some (.method x.methods.length), none⟩ := by
    refine enterMethod_eq_ok_iff.mpr ⟨id, rfl, rfl, as, readUses_eq_some_iff.mp has, ?_⟩
    rw [cleared_modifyDecl_put]
    show Draft.mk _ [] [] (id :: ids)
      (some (.method ((((u.put id x).decl? id).map (·.methods.length)).getD 0))) none = _
    rw [SourceUnit.decl?_put hlt]
    rfl
  have hlast : ∀ ps, (MemberSlot.method x.methods.length).IsLast (g ps) := by
    intro ps
    simp [g, MemberSlot.IsLast]
  have happly : ∀ ps p, (Edit.param (.method x.methods.length) p).apply (g ps) = g (ps ++ [p]) := by
    intro ps p
    simp only [g, Edit.apply, modify_length_append]
  rw [Clause.events, between, feedAll_marks, feedAll_cons henter,
    feedAll_append (feedAll_params hlt hlast happly h [])]
  rfl

theorem leads_constructor (hlt : id < u.decls.length) (hx : x.body.hasConstructors)
    {marks : List Mark} {as : List AnnotationUse} {params : List WrittenParameter}
    {read : List Parameter} (has : readUses id (Mark.annotations marks) = some as)
    (h : params.mapM (WrittenParameter.read id) = some read) :
    Leads (u.put id x) (id :: ids) (Clause.constructor marks params).events
      (u.put id { x with
        body := x.body.mapConstructors (· ++ [⟨Mark.modifiers marks, as, read⟩]) })
      (id :: ids) := by
  intro slot
  refine ⟨none, ?_⟩
  let k (ps : List Parameter) : Constructor := ⟨Mark.modifiers marks, as, ps⟩
  let g (ps : List Parameter) : Declaration :=
    { x with body := x.body.mapConstructors (· ++ [k ps]) }
  have hbody : ∀ modifiers annotations member slot,
      (Draft.mk (u.put id x) modifiers annotations (id :: ids) member slot).bodyOf id = x.body :=
    fun _ _ _ _ => bodyOf_eq (SourceUnit.decl?_put hlt x)
  have henter : Draft.feed ⟨u.put id x, Mark.modifiers marks, Mark.annotations marks, id :: ids,
        none, slot⟩ .enterConstructor =
      .ok ⟨u.put id (g []), [], [], id :: ids, some (.constructor x.body.constructors.length),
        none⟩ := by
    refine enterConstructor_eq_ok_iff.mpr ⟨id, rfl, rfl, as, readUses_eq_some_iff.mp has, ?_, ?_⟩
    · rw [hbody]
      exact hx
    · rw [modifyBody, cleared_modifyDecl_put, hbody]
      rfl
  have hlast : ∀ ps, (MemberSlot.constructor x.body.constructors.length).IsLast (g ps) := by
    intro ps
    show _ = (x.body.mapConstructors _).constructors.length
    rw [Body.constructors_mapConstructors hx, List.length_append]
    rfl
  have happly : ∀ ps p,
      (Edit.param (.constructor x.body.constructors.length) p).apply (g ps) = g (ps ++ [p]) := by
    intro ps p
    simp only [g, Edit.apply]
    cases x.body <;> simp [Body.mapConstructors, Body.constructors, modify_length_append, k]
  rw [Clause.events, between, feedAll_marks, feedAll_cons henter,
    feedAll_append (feedAll_params hlt hlast happly h [])]
  rfl

end Parts

end Draft

open Draft

/-- A part that fits changes the innermost open type and nothing else. -/
theorem Clause.leads {u : SourceUnit} {id : Nat} {ids : List Nat} {x : Declaration} {c : Clause}
    {contents : Contents} (hlt : id < u.decls.length) (hfits : c.fits x.kind)
    (h : c.read x.container id = some contents) :
    Leads (u.put id x) (id :: ids) c.events (u.put id (x.add contents)) (id :: ids) := by
  have hx := SourceUnit.decl?_put hlt x
  cases c <;> simp only [Clause.read, Option.bind_eq_bind, Option.bind_eq_some_iff,
    Option.pure_def, Option.some.injEq] at h
  case typeParam uses name bounds =>
    obtain ⟨as, has, bs, hbs, rfl⟩ := h
    rw [Declaration.add_typeParams]
    exact leads_typeParam hlt has hbs
  case superclass ty =>
    obtain ⟨s, hs, rfl⟩ := h
    rw [Declaration.add_superclass]
    obtain ⟨old, cs, fs, hb⟩ := Body.kind_eq_classType_iff.mp (eq_of_beq hfits)
    refine leads_of_feed [] fun slot => setSuperclass_eq_ok_iff.mpr ⟨id, rfl, s, ?_, old, cs, fs,
      (bodyOf_eq hx).trans hb, ?_⟩
    · rw [around_eq hx]
      exact readNamed_eq_some_iff.mp hs
    · rw [hb]
      exact cleared_modifyDecl_put [] [] slot _
  case interface ty =>
    obtain ⟨i, hi, rfl⟩ := h
    rw [Declaration.add_interfaces]
    refine leads_of_feed [] fun slot => addInterface_eq_ok_iff.mpr ⟨id, rfl, i, ?_, ?_⟩
    · rw [around_eq hx]
      exact readNamed_eq_some_iff.mp hi
    · exact cleared_modifyDecl_put [] [] slot _
  case field marks ty declarators =>
    obtain ⟨as, has, fs, hfs, rfl⟩ := h
    rw [Declaration.add_fields]
    refine leads_of_feed marks fun slot => addFields_eq_ok_iff.mpr ⟨id, rfl, rfl, as,
      readUses_eq_some_iff.mp has, fs, fieldsOf_eq_ok hfs, ?_⟩
    exact cleared_modifyDecl_put _ _ _ _
  case constant marks name =>
    obtain ⟨as, has, rfl⟩ := h
    rw [Declaration.add_constant]
    obtain ⟨ks, cs, fs, hb⟩ := Body.kind_eq_enumType_iff.mp (eq_of_beq hfits)
    refine leads_of_feed marks fun slot => addConstant_eq_ok_iff.mpr ⟨id, rfl, as,
      readUses_eq_some_iff.mp has, ks, cs, fs, (bodyOf_eq hx).trans hb, ?_⟩
    rw [hb]
    exact cleared_modifyDecl_put _ _ slot _
  case component marks name ty =>
    obtain ⟨as, has, rfl⟩ := h
    rw [Declaration.add_fields]
    refine leads_of_feed marks fun slot => addComponent_eq_ok_iff.mpr ⟨id, rfl, as,
      readUses_eq_some_iff.mp has, ?_, cleared_modifyDecl_put _ _ _ _⟩
    rw [bodyOf_eq hx]
    exact eq_of_beq hfits
  case method marks name returnType params =>
    obtain ⟨as, has, ps, hps, rfl⟩ := h
    rw [Declaration.add_methods]
    exact leads_method hlt has hps
  case constructor marks params =>
    obtain ⟨as, has, ps, hps, rfl⟩ := h
    rw [Declaration.add_constructors]
    refine leads_constructor hlt ?_ has hps
    rw [Body.hasConstructors_eq]
    exact hfits

/-! ## Types -/

mutual

/-- A type is rebuilt as a tree in the container that is open, and what was open before is open
again after it. -/
theorem WrittenDecl.leads (t : WrittenDecl) {u : SourceUnit} {ids : List Nat} {tree : DeclTree}
    (ht : t.wellFormed) (h : t.read (.ofStack ids) u.decls.length = some tree) :
    Leads u ids t.events (u.place tree (.ofStack ids)) ids := by
  cases t with
  | node marks kind name parts =>
    rw [WrittenDecl.wellFormed] at ht
    obtain ⟨as, has, contents, hcontents, rfl⟩ := WrittenDecl.read_eq_some_iff.mp h
    let x : Declaration := { Declaration.empty kind name (.ofStack ids) with
      modifiers := Mark.modifiers marks, annotations := as }
    intro slot
    have henter : Draft.feed ⟨u, Mark.modifiers marks, Mark.annotations marks, ids, none, slot⟩
        (.enterType kind name) = .ok (between (u.addDecl x) (u.decls.length :: ids) none) := by
      refine enterType_eq_ok_iff.mpr ⟨rfl, as, readUses_eq_some_iff.mp has, ?_⟩
      rw [Draft.container_eq]
      rfl
    have hx : (u.addDecl x).decl? u.decls.length = some x := by
      rw [SourceUnit.decl?_addDecl, if_pos rfl]
    have hkind : x.kind = kind := Body.kind_empty kind
    rw [← SourceUnit.length_addDecl u x] at hcontents
    have hparts : Leads (u.addDecl x) (u.decls.length :: ids) (WrittenPart.eventsOfList parts)
        ((u.addDecl x).extend u.decls.length contents) (u.decls.length :: ids) :=
      WrittenPart.leads_list parts hx (hkind.symm ▸ (Bool.and_eq_true_iff.mp ht).2) hcontents
    obtain ⟨last, hlast⟩ := hparts none
    refine ⟨none, ?_⟩
    rw [WrittenDecl.events, between, feedAll_marks, feedAll_cons henter, feedAll_append hlast,
      SourceUnit.extend_addDecl]
    rfl

theorem WrittenPart.leads (p : WrittenPart) {u : SourceUnit} {id : Nat} {ids : List Nat}
    {x : Declaration} {contents : Contents} (hx : u.decl? id = some x) (hp : p.wellFormed x.kind)
    (h : p.read x.container id u.decls.length = some contents) :
    Leads u (id :: ids) p.events (u.extend id contents) (id :: ids) := by
  cases p with
  | clause c =>
    rw [WrittenPart.read] at h
    rw [WrittenPart.wellFormed] at hp
    have hleads : Leads (u.put id x) (id :: ids) c.events (u.put id (x.add contents)) (id :: ids) :=
      Clause.leads (List.getElem?_eq_some_iff.mp hx).1 (Bool.and_eq_true_iff.mp hp).1 h
    rw [SourceUnit.put_self hx] at hleads
    rw [WrittenPart.events, SourceUnit.extend_of_types_eq_nil hx (Clause.types_of_read h)]
    exact hleads
  | type t =>
    obtain ⟨tree, htree, rfl⟩ := WrittenPart.read_type_eq_some_iff.mp h
    rw [WrittenPart.wellFormed] at hp
    rw [WrittenPart.events]
    exact WrittenDecl.leads t hp htree

theorem WrittenPart.leads_list (ps : List WrittenPart) {u : SourceUnit} {id : Nat} {ids : List Nat}
    {x : Declaration} {contents : Contents} (hx : u.decl? id = some x)
    (hps : WrittenPart.allWellFormed x.kind ps)
    (h : WrittenPart.readList x.container id u.decls.length ps = some contents) :
    Leads u (id :: ids) (WrittenPart.eventsOfList ps) (u.extend id contents) (id :: ids) := by
  cases ps with
  | nil =>
    cases h
    rw [SourceUnit.extend_empty hx]
    exact leads_nil u (id :: ids)
  | cons p ps =>
    obtain ⟨first, hfirst, rest, hrest, rfl⟩ := WrittenPart.readList_cons_eq_some_iff.mp h
    rw [WrittenPart.allWellFormed] at hps
    obtain ⟨hp, hps⟩ := Bool.and_eq_true_iff.mp hps
    rw [← SourceUnit.length_extend] at hrest
    rw [← x.kind_add first] at hps
    have hleads : Leads u (id :: ids) p.events (u.extend id first) (id :: ids) :=
      WrittenPart.leads p hx hp hfirst
    rw [← SourceUnit.extend_extend (List.getElem?_eq_some_iff.mp hx).1]
    exact hleads.append (WrittenPart.leads_list ps (SourceUnit.decl?_extend hx first) hps hrest)

end

/-- The types at the top level, one after the other. -/
theorem WrittenDecl.leads_list (ts : List WrittenDecl) {u : SourceUnit} {forest : List DeclTree}
    (hts : ts.all (·.wellFormed)) (h : WrittenDecl.readList u.decls.length ts = some forest) :
    Leads u [] (ts.flatMap WrittenDecl.events) { u with
      decls := u.decls ++ (DeclTree.preorderList forest).map (·.2)
      topLevel := u.topLevel ++ forest.map (·.id) } [] := by
  induction ts generalizing u forest with
  | nil =>
    cases h
    show Leads u [] [] { u with decls := u.decls ++ [], topLevel := u.topLevel ++ [] } []
    rw [List.append_nil, List.append_nil]
    exact leads_nil u []
  | cons t ts ih =>
    obtain ⟨tree, htree, rest, hrest, rfl⟩ := readList_cons_eq_some_iff.mp h
    obtain ⟨ht, hts⟩ := Bool.and_eq_true_iff.mp hts
    have hfirst : Leads u [] t.events (u.place tree .unit) [] := t.leads ht htree
    have hlen : (u.place tree .unit).decls.length = u.decls.length + tree.preorder.length := by
      simp [SourceUnit.place]
    rw [← hlen] at hrest
    have hlast := hfirst.append (ih hts hrest)
    simp only [SourceUnit.place, List.append_assoc, ← List.map_append] at hlast
    exact hlast

/-! ## Trees of a table -/

section Trees

variable {u : SourceUnit}

mutual

/-- A tree that is numbered in preorder and lies in the table from its number on is a tree of the
unit. -/
theorem SourceUnit.tree?_eq_of_holds (hu : u.WellFormed) (t : DeclTree) {n : Nat}
    (hn : t.Numbered n) (h : t.preorder.map (·.2) <+: u.decls.drop n) :
    u.tree? t.id = some t := by
  cases t with
  | node id x nested =>
    obtain ⟨rfl, hnested, hchildren⟩ := hn
    obtain ⟨rest, hrest⟩ := h
    have hx : u.decl? id = some x := by
      rw [SourceUnit.decl?, ← Nat.add_zero id, ← List.getElem?_drop, ← hrest]
      rfl
    have htail : (DeclTree.preorderList nested).map (·.2) <+: u.decls.drop (id + 1) := by
      rw [← List.drop_drop, ← hrest]
      exact List.prefix_append _ _
    rw [DeclTree.id, SourceUnit.tree?_eq hu hx, hnested,
      SourceUnit.filterMap_tree?_eq_of_holds hu nested hchildren htail]

theorem SourceUnit.filterMap_tree?_eq_of_holds (hu : u.WellFormed) (ts : List DeclTree) {n : Nat}
    (hn : DeclTree.AllNumbered n ts)
    (h : (DeclTree.preorderList ts).map (·.2) <+: u.decls.drop n) :
    (ts.map (·.id)).filterMap u.tree? = ts := by
  cases ts with
  | nil => rfl
  | cons t ts =>
    obtain ⟨ht, hts⟩ := hn
    rw [DeclTree.preorderList, List.map_append] at h
    have hfirst := SourceUnit.tree?_eq_of_holds hu t ht ((List.prefix_append _ _).trans h)
    have hlast : (DeclTree.preorderList ts).map (·.2) <+:
        u.decls.drop (n + t.preorder.length) := by
      obtain ⟨rest, hrest⟩ := h
      refine ⟨rest, ?_⟩
      rw [← List.drop_drop, ← hrest, List.append_assoc, List.drop_left' (List.length_map ..)]
    rw [List.map_cons, List.filterMap_cons_some hfirst,
      SourceUnit.filterMap_tree?_eq_of_holds hu ts hts hlast]

end

end Trees

/-! ## Units -/

namespace Draft

end Draft

end SourceModel
