import Mathlib.Data.List.Sort
import SourceModel.Proofs.Drafts

/-!
# Depth-first order

The declarations of a unit, taken depth first, are its table from front to back. A declaration
begins inside one of those that are still open when its predecessor has begun (`InOrder`), so the
declarations inside a type follow it without a gap (`around_of_between`), and the trees of types
that stand side by side do not interleave.
-/

namespace SourceModel

namespace SourceUnit

variable {u v : SourceUnit} {a id : Nat}

/-- The declaration `a` is the given one or stands somewhere around it. -/
inductive Around (u : SourceUnit) (a : Nat) : Nat → Prop where
  | self : a < u.decls.length → Around u a a
  | step {id parent : Nat} : u.containerOf? id = some (.type parent) → Around u a parent →
      Around u a id

/-- A nested declaration begins inside its predecessor or inside one around that. -/
def InOrder (u : SourceUnit) : Prop :=
  ∀ id parent, u.containerOf? (id + 1) = some (.type parent) → u.Around parent id

/-! ## Declarations around a declaration -/

theorem Around.lt_length (h : u.Around a id) : id < u.decls.length := by
  cases h with
  | self h => exact h
  | step h _ => exact lt_length_of_containerOf? h

theorem Around.trans {b : Nat} (h : u.Around b id) (hb : u.Around a b) : u.Around a id := by
  induction h with
  | self _ => exact hb
  | step hc _ ih => exact .step hc ih

theorem Around.le (hu : u.WellFormed) (h : u.Around a id) : a ≤ id := by
  induction h with
  | self _ => exact Nat.le_refl _
  | step hc _ ih => exact Nat.le_of_lt (Nat.lt_of_le_of_lt ih (hu.parent_lt hc))

/-- What stands inside a declaration follows it without a gap. -/
theorem around_of_between (ho : u.InOrder) {m : Nat} (h : u.Around a id) (ha : a ≤ m)
    (hm : m ≤ id) : u.Around a m := by
  induction id with
  | zero =>
    rw [Nat.le_zero.mp hm]
    exact h
  | succ id ih =>
    rcases Nat.lt_or_eq_of_le hm with hlt | rfl
    · cases h with
      | self _ => omega
      | step hc hp => exact ih ((ho id _ hc).trans hp) (Nat.le_of_lt_succ hlt)
    · exact h

/-- The tree of a declaration ends before the next declaration of the same container. -/
theorem lt_of_around_sibling (hu : u.WellFormed) (ho : u.InOrder) {b : Nat} {c : Container}
    (ha : u.containerOf? a = some c) (hb : u.containerOf? b = some c) (hab : a < b)
    (h : u.Around a id) : id < b := by
  refine Nat.lt_of_not_le fun hle => ?_
  cases around_of_between ho h (Nat.le_of_lt hab) hle with
  | self _ => exact Nat.lt_irrefl _ hab
  | step hc hp =>
    rw [hb] at hc
    cases hc
    exact Nat.not_lt_of_le (hp.le hu) (hu.parent_lt ha)

theorem exists_topLevel_around (hu : u.WellFormed) (h : id < u.decls.length) :
    ∃ top ∈ u.topLevel, u.Around top id := by
  induction id using Nat.strongRecOn with
  | ind id ih =>
    have hc : u.containerOf? id = some (u.decls[id]).container :=
      containerOf?_eq_some (List.getElem?_eq_getElem h)
    cases hx : (u.decls[id]).container with
    | unit =>
      rw [hx] at hc
      exact ⟨id, ((hu.lists .unit).mem_iff id).mpr hc, .self h⟩
    | type parent =>
      rw [hx] at hc
      have hlt := hu.parent_lt hc
      obtain ⟨top, htop, har⟩ := ih parent hlt (Nat.lt_trans hlt h)
      exact ⟨top, htop, .step hc har⟩

/-! ## Trees -/

/-- The numbers of a declaration and of those inside it, depth first. -/
def preorderOf (u : SourceUnit) (id : Nat) : List Nat :=
  ((u.tree? id).map fun t => t.preorder.map (·.1)).getD []

theorem preorderList_eq_flatMap (ts : List DeclTree) :
    DeclTree.preorderList ts = ts.flatMap DeclTree.preorder := by
  induction ts with
  | nil => rfl
  | cons t ts ih =>
    rw [DeclTree.preorderList, ih]
    rfl

theorem map_preorderList_filterMap (u : SourceUnit) (ids : List Nat) :
    (DeclTree.preorderList (ids.filterMap u.tree?)).map (·.1) = ids.flatMap u.preorderOf := by
  rw [preorderList_eq_flatMap, List.map_flatMap]
  induction ids with
  | nil => rfl
  | cons i ids ih =>
    rw [List.flatMap_cons, ← ih]
    unfold preorderOf
    cases hi : u.tree? i with
    | none => rw [List.filterMap_cons_none hi]; rfl
    | some t => rw [List.filterMap_cons_some hi]; rfl

theorem tree?_eq (hu : u.WellFormed) {x : Declaration} (h : u.decl? id = some x) :
    u.tree? id = some (.node id x (x.nested.filterMap u.tree?)) := by
  rw [tree?]
  split
  · next y hy =>
    have hxy : some y = some x := hy.symm.trans h
    cases hxy
    show some (DeclTree.node id x (x.nested.filterMap _)) = _
    congr 2
    refine List.filterMap_congr fun child hchild => ?_
    have hmem : child ∈ u.entries (.type id) := by
      rw [entries_type, h]
      exact hchild
    rw [dif_pos (hu.parent_lt (((hu.lists (.type id)).mem_iff child).mp hmem))]
  · next hn => exact absurd (h.symm.trans hn) (Option.some_ne_none x)

theorem preorderOf_eq (hu : u.WellFormed) (h : id < u.decls.length) :
    u.preorderOf id = id :: (u.entries (.type id)).flatMap u.preorderOf := by
  have hd : u.decl? id = some u.decls[id] := List.getElem?_eq_getElem h
  rw [preorderOf, tree?_eq hu hd, entries_type, hd]
  show id :: _ = id :: _
  rw [map_preorderList_filterMap]
  rfl

/-- The tree of a declaration holds that declaration and those inside it, in increasing order. -/
structure TreeInOrder (u : SourceUnit) (id : Nat) : Prop where
  increasing : (u.preorderOf id).Pairwise (· < ·)
  mem_iff : ∀ j, j ∈ u.preorderOf id ↔ u.Around id j

/-- The trees of one container do not interleave. -/
theorem Lists.pairwise_flatMap (hu : u.WellFormed) (ho : u.InOrder) {c : Container}
    {ids : List Nat} (hl : u.Lists c ids) (ht : ∀ i ∈ ids, u.TreeInOrder i) :
    (ids.flatMap u.preorderOf).Pairwise (· < ·) := by
  rw [List.pairwise_flatMap]
  refine ⟨fun i hi => (ht i hi).increasing, hl.increasing.imp_of_mem fun {i j} hi hj hij => ?_⟩
  intro k hk l hl'
  have hk' := ((ht i hi).mem_iff k).mp hk
  have hl'' := ((ht j hj).mem_iff l).mp hl'
  exact Nat.lt_of_lt_of_le
    (lt_of_around_sibling hu ho ((hl.mem_iff i).mp hi) ((hl.mem_iff j).mp hj) hij hk') (hl''.le hu)

theorem treeInOrder (hu : u.WellFormed) (ho : u.InOrder) (id : Nat) (h : id < u.decls.length) :
    u.TreeInOrder id := by
  -- children come later in the table, so the induction is on what is left of it
  induction hn : u.decls.length - id using Nat.strongRecOn generalizing id with
  | ind n ih =>
    have hchild : ∀ child ∈ u.entries (.type id), id < child ∧ u.TreeInOrder child := by
      intro child hmem
      have hc := ((hu.lists (.type id)).mem_iff child).mp hmem
      have hlt := hu.parent_lt hc
      have hlen := lt_length_of_containerOf? hc
      exact ⟨hlt, ih (u.decls.length - child) (by omega) child hlen rfl⟩
    constructor
    · rw [preorderOf_eq hu h, List.pairwise_cons]
      refine ⟨fun j hj => ?_, (hu.lists (.type id)).pairwise_flatMap hu ho
        fun child hmem => (hchild child hmem).2⟩
      obtain ⟨child, hmem, hj⟩ := List.mem_flatMap.mp hj
      have har := ((hchild child hmem).2.mem_iff j).mp hj
      exact Nat.lt_of_lt_of_le (hchild child hmem).1 (har.le hu)
    · intro j
      rw [preorderOf_eq hu h, List.mem_cons, List.mem_flatMap]
      constructor
      · rintro (rfl | ⟨child, hmem, hj⟩)
        · exact .self h
        · have har := ((hchild child hmem).2.mem_iff j).mp hj
          exact har.trans (.step (((hu.lists (.type id)).mem_iff child).mp hmem) (.self h))
      · intro har
        induction har with
        | self _ => exact .inl rfl
        | @step j parent hc _ ihp =>
          refine .inr ?_
          rcases ihp with rfl | ⟨child, hmem, hp⟩
          · have hmem := ((hu.lists (.type parent)).mem_iff j).mpr hc
            have hself : u.Around j j := .self (lt_length_of_containerOf? hc)
            exact ⟨j, hmem, ((hchild j hmem).2.mem_iff j).mpr hself⟩
          · refine ⟨child, hmem, ((hchild child hmem).2.mem_iff j).mpr (.step hc ?_)⟩
            exact ((hchild child hmem).2.mem_iff parent).mp hp

/-- Depth first, the declarations of a unit come in the order of the table. -/
theorem map_visit_eq_range (hu : u.WellFormed) (ho : u.InOrder) :
    u.visit.map (·.1) = List.range u.decls.length := by
  have hmap : u.visit.map (·.1) = u.topLevel.flatMap u.preorderOf :=
    map_preorderList_filterMap u u.topLevel
  have htop : ∀ i ∈ u.topLevel, u.TreeInOrder i := fun i hi =>
    treeInOrder hu ho i (lt_length_of_containerOf? (((hu.lists .unit).mem_iff i).mp hi))
  rw [hmap]
  refine ((hu.lists .unit).pairwise_flatMap hu ho htop).eq_of_mem_iff List.pairwise_lt_range ?_
  intro j
  rw [List.mem_flatMap, List.mem_range]
  constructor
  · rintro ⟨i, hi, hj⟩
    exact (((htop i hi).mem_iff j).mp hj).lt_length
  · intro hj
    obtain ⟨i, hi, har⟩ := exists_topLevel_around hu hj
    exact ⟨i, hi, ((htop i hi).mem_iff j).mpr har⟩

/-! ## Entries of trees -/

theorem decl?_of_mem_preorder {t : DeclTree} (h : u.tree? id = some t) :
    ∀ e ∈ t.preorder, u.decl? e.1 = some e.2 := by
  induction hn : u.decls.length - id using Nat.strongRecOn generalizing id t with
  | ind n ih =>
    rw [tree?] at h
    split at h
    · next x hx =>
      have hlt := (List.getElem?_eq_some_iff.mp hx).1
      cases h
      intro e he
      rw [DeclTree.preorder, preorderList_eq_flatMap] at he
      rcases List.mem_cons.mp he with rfl | he
      · exact hx
      · obtain ⟨t, ht, he⟩ := List.mem_flatMap.mp he
        obtain ⟨child, -, hchild⟩ := List.mem_filterMap.mp ht
        split at hchild
        · exact ih (u.decls.length - child) (by omega) hchild rfl e he
        · cases hchild
    · cases h

theorem decl?_of_mem_visit {x : Declaration} (h : (id, x) ∈ u.visit) : u.decl? id = some x := by
  unfold visit at h
  rw [preorderList_eq_flatMap] at h
  obtain ⟨t, ht, he⟩ := List.mem_flatMap.mp h
  obtain ⟨top, -, htop⟩ := List.mem_filterMap.mp ht
  exact decl?_of_mem_preorder htop (id, x) he

/-! ## Units that are read from events -/

theorem SameTree.around (h : SameTree u v) (ha : u.Around a id) : v.Around a id := by
  induction ha with
  | self hlt => exact .self (h.length ▸ hlt)
  | step hc _ ih => exact .step ((h.containerOf? _).trans hc) ih

theorem SameTree.inOrder (h : SameTree u v) (hu : u.InOrder) : v.InOrder := fun id parent hc =>
  h.around (hu id parent ((h.containerOf? _).symm.trans hc))

theorem Around.addDecl (h : u.Around a id) (x : Declaration) : (u.addDecl x).Around a id := by
  induction h with
  | self hlt =>
    refine .self ?_
    rw [length_addDecl]
    exact Nat.lt_succ_of_lt hlt
  | step hc _ ih =>
    refine .step ?_ ih
    rw [containerOf?_addDecl, if_neg (Nat.ne_of_lt (lt_length_of_containerOf? hc))]
    exact hc

theorem OpenChain.around {rest : List Nat} (h : u.OpenChain (id :: rest)) :
    ∀ i ∈ id :: rest, u.Around i id := by
  induction rest generalizing id with
  | nil =>
    intro i hi
    rw [List.mem_singleton.mp hi]
    exact .self (h.lt_length id List.mem_cons_self)
  | cons r rest ih =>
    intro i hi
    rcases List.mem_cons.mp hi with rfl | hi
    · exact .self (h.lt_length i List.mem_cons_self)
    · cases h with
      | cons hc _ hr => exact .step hc (ih hr i hi)

end SourceUnit

namespace Draft

variable {d e : Draft}

/-- The table is in depth-first order, and its last declaration stands in all open types. -/
structure InOrder (d : Draft) : Prop where
  unit : d.unit.InOrder
  openTypes : ∀ last, d.unit.decls.length = last + 1 → ∀ id ∈ d.openTypes, d.unit.Around id last

theorem TreeStep.inOrder (h : TreeStep d e) (ho : d.unit.OpenChain d.openTypes)
    (hd : d.InOrder) : e.InOrder := by
  cases h with
  | stays hs heq =>
    refine ⟨hs.inOrder hd.unit, fun last hl id hid => ?_⟩
    rw [hs.length] at hl
    rw [heq] at hid
    exact hs.around (hd.openTypes last hl id hid)
  | opens x hn hx hunit heq =>
    constructor
    · intro id parent hc
      rw [hunit] at hc ⊢
      rw [SourceUnit.containerOf?_addDecl] at hc
      split at hc
      · next hlen =>
        -- the new declaration begins in the innermost open type
        cases hids : d.openTypes with
        | nil => rw [hx, hids] at hc; cases hc
        | cons i rest =>
          rw [hx, hids] at hc
          cases hc
          exact (hd.openTypes id hlen.symm _ (hids ▸ List.mem_cons_self)).addDecl x
      · exact (hd.unit id parent hc).addDecl x
    · intro last hl id hid
      rw [hunit, SourceUnit.length_addDecl] at hl
      have hlast : d.unit.decls.length = last := by omega
      rw [heq] at hid
      rw [hunit]
      rcases List.mem_cons.mp hid with rfl | hid
      · rw [hlast]
        refine .self ?_
        rw [SourceUnit.length_addDecl]
        omega
      · cases hids : d.openTypes with
        | nil => rw [hids] at hid; cases hid
        | cons i rest =>
          rw [hids] at hid ho hx
          refine .step ?_ ((ho.around id hid).addDecl x)
          rw [SourceUnit.containerOf?_addDecl, if_pos hlast.symm, hx]
          rfl
  | closes hunit heq =>
    refine ⟨hunit ▸ hd.unit, fun last hl id hid => ?_⟩
    rw [hunit] at hl ⊢
    rw [heq] at hid
    exact hd.openTypes last hl id (List.mem_of_mem_tail hid)

theorem inOrder_empty : empty.InOrder where
  unit id parent h := by cases h
  openTypes last h := by cases h

theorem feedOn_of_feedAll_eq_ok {events : List Event} (h : d.feedAll events = .ok e) :
    (d.feedOn events).1 = e := by
  induction events generalizing d with
  | nil =>
    cases h
    rfl
  | cons event events ih =>
    obtain ⟨next, hf, hrest⟩ := bind_eq_ok_iff.mp h
    rw [feedOn_cons, next_of_eq_ok hf]
    exact ih hrest

theorem unit_eq_of_finish_eq_ok {strict : Bool} {u : SourceUnit} (h : d.finish strict = .ok u) :
    d.unit = u := by
  unfold finish at h
  split at h
  · cases h
  · split at h
    · cases h
    · split at h
      · cases h
      · cases h
        rfl

theorem inOrder_feedOn (events : List Event) :
    (empty.feedOn events).1.WellFormed ∧ (empty.feedOn events).1.InOrder := by
  refine feedOn_induction (P := fun d => d.WellFormed ∧ d.InOrder) (fun d event h => ?_)
    ⟨wellFormed_empty, inOrder_empty⟩ events
  exact ⟨h.1.next event, (treeStep_next d event).inOrder h.1.openTypes h.2⟩

end Draft

/-- A unit that is read from events has a table in order. -/
theorem SourceUnit.wellFormed_of_ofEvents {strict : Bool} {events : List Event} {u : SourceUnit}
    (h : SourceUnit.ofEvents strict events = .ok u) : u.WellFormed ∧ u.InOrder := by
  obtain ⟨d, hd, hfinish⟩ := ofEvents_eq_ok_iff.mp h
  obtain ⟨hw, ho⟩ := Draft.inOrder_feedOn events
  rw [Draft.feedOn_of_feedAll_eq_ok hd] at hw ho
  rw [← Draft.unit_eq_of_finish_eq_ok hfinish]
  exact ⟨hw.unit, ho.unit⟩

end SourceModel
