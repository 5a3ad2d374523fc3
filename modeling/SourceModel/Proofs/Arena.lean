import SourceModel.SourceUnit

/-!
# The table of declarations

A unit keeps all its declarations in one table. The table is well formed if a declaration comes
after the one around it, and if every list of declarations (the top level, the types nested in a
type) holds exactly those that stand there, in increasing order. This is so for the empty table,
it does not change when a declaration is changed in place, and a new declaration keeps it.
-/

namespace SourceModel

/-! ## Places in the table -/

namespace SourceUnit

variable {u v : SourceUnit}

def containerOf? (u : SourceUnit) (id : Nat) : Option Container :=
  (u.decl? id).map (·.container)

/-- The list in which the declarations of a container are entered. -/
def entries (u : SourceUnit) : Container → List Nat
  | .unit => u.topLevel
  | .type id => ((u.decl? id).map (·.nested)).getD []

theorem entries_type (u : SourceUnit) (id : Nat) :
    u.entries (.type id) = ((u.decl? id).map (·.nested)).getD [] := rfl

/-- `ids` are the declarations that stand directly in the container, in increasing order. -/
structure Lists (u : SourceUnit) (c : Container) (ids : List Nat) : Prop where
  increasing : ids.Pairwise (· < ·)
  mem_iff : ∀ id, id ∈ ids ↔ u.containerOf? id = some c

/-- A declaration comes after the one around it, and every container lists what stands in it. -/
structure WellFormed (u : SourceUnit) : Prop where
  container : ∀ id c, u.containerOf? id = some c → c = .unit ∨ ∃ parent < id, c = .type parent
  lists : ∀ c, u.Lists c (u.entries c)

end SourceUnit

/-- What surrounds a declaration that begins while the given types are open, innermost first. -/
def Container.ofStack : List Nat → Container
  | [] => .unit
  | id :: _ => .type id

/-- The types, innermost first, stand one in the other, the outermost at the top level, and each is
the last of the list in which it stands. -/
inductive SourceUnit.OpenChain (u : SourceUnit) : List Nat → Prop where
  | nil : OpenChain u []
  | cons {id : Nat} {rest : List Nat} : u.containerOf? id = some (.ofStack rest) →
      (u.entries (.ofStack rest)).getLast? = some id → OpenChain u rest → OpenChain u (id :: rest)

/-! ## Units with the same tree -/

namespace SourceUnit

variable {u v : SourceUnit}

structure SameTree (u v : SourceUnit) : Prop where
  containerOf? : ∀ id, v.containerOf? id = u.containerOf? id
  entries : ∀ c, v.entries c = u.entries c
  length : v.decls.length = u.decls.length

theorem sameTree_of_eq (hd : v.decls = u.decls) (ht : v.topLevel = u.topLevel) : SameTree u v where
  containerOf? id := by simp [SourceUnit.containerOf?, decl?, hd]
  entries c := by cases c <;> simp [SourceUnit.entries, decl?, hd, ht]
  length := by rw [hd]

theorem decl?_modifyDecl (u : SourceUnit) (id i : Nat) (f : Declaration → Declaration) :
    (u.modifyDecl id f).decl? i = if i = id then (u.decl? i).map f else u.decl? i := by
  unfold decl? modifyDecl
  rw [List.getElem?_modify]
  by_cases h : i = id
  · simp [h]
  · simp [h, Ne.symm h]

/-- A change inside a declaration does not move it. -/
theorem sameTree_modifyDecl (u : SourceUnit) (id : Nat) {f : Declaration → Declaration}
    (hc : ∀ x, (f x).container = x.container) (hn : ∀ x, (f x).nested = x.nested) :
    SameTree u (u.modifyDecl id f) where
  containerOf? i := by
    unfold SourceUnit.containerOf?
    rw [decl?_modifyDecl]
    split
    · rw [Option.map_map]
      congr 1
      funext x
      exact hc x
    · rfl
  entries c := by
    cases c with
    | unit => rfl
    | type i =>
      rw [entries_type, entries_type, decl?_modifyDecl]
      split
      · rw [Option.map_map]
        congr 2
        funext x
        exact hn x
      · rfl
  length := List.length_modify ..

theorem SameTree.lists (h : SameTree u v) {c : Container} {ids : List Nat} (hl : u.Lists c ids) :
    v.Lists c ids :=
  ⟨hl.increasing, fun id => by rw [h.containerOf?]; exact hl.mem_iff id⟩

theorem SameTree.wellFormed (h : SameTree u v) (hu : u.WellFormed) : v.WellFormed where
  container id c hc := hu.container id c (by rw [← h.containerOf?]; exact hc)
  lists c := by rw [h.entries]; exact h.lists (hu.lists c)

theorem SameTree.openChain (h : SameTree u v) {ids : List Nat} (hu : u.OpenChain ids) :
    v.OpenChain ids := by
  induction hu with
  | nil => exact .nil
  | cons hc hl _ ih =>
    refine .cons ?_ ?_ ih
    · rw [h.containerOf?]; exact hc
    · rw [h.entries]; exact hl

/-! ## Containers -/

variable {x : Declaration}

theorem containerOf?_eq_some {id : Nat} (h : u.decl? id = some x) :
    u.containerOf? id = some x.container := by
  unfold containerOf?
  rw [h]
  rfl

theorem containerOf?_eq_none {id : Nat} (h : u.decls.length ≤ id) : u.containerOf? id = none := by
  unfold containerOf? decl?
  rw [List.getElem?_eq_none h]
  rfl

theorem lt_length_of_containerOf? {id : Nat} {c : Container} (h : u.containerOf? id = some c) :
    id < u.decls.length := by
  refine Nat.lt_of_not_le fun hn => ?_
  rw [containerOf?_eq_none hn] at h
  cases h

theorem WellFormed.parent_lt (hu : u.WellFormed) {id parent : Nat}
    (h : u.containerOf? id = some (.type parent)) : parent < id := by
  rcases hu.container id _ h with hc | ⟨p, hlt, hc⟩
  · cases hc
  · cases hc
    exact hlt

/-! ## A new declaration -/

theorem entries_type_eq_nil {id : Nat} (h : u.decls.length ≤ id) : u.entries (.type id) = [] := by
  rw [entries_type, decl?, List.getElem?_eq_none h]
  rfl

theorem length_addDecl (u : SourceUnit) (x : Declaration) :
    (u.addDecl x).decls.length = u.decls.length + 1 := by
  unfold addDecl
  cases x.container <;> simp

theorem decl?_addDecl (u : SourceUnit) (x : Declaration) (id : Nat) :
    (u.addDecl x).decl? id =
      if id = u.decls.length then some x
      else (u.decl? id).map fun y =>
        if x.container = .type id then { y with nested := y.nested ++ [u.decls.length] }
        else y := by
  unfold addDecl
  cases x.container with
  | unit =>
    simp only [decl?, List.getElem?_append]
    grind
  | type parent =>
    simp only [decl?, List.getElem?_append, List.length_modify, List.getElem?_modify]
    grind

theorem containerOf?_addDecl (u : SourceUnit) (x : Declaration) (id : Nat) :
    (u.addDecl x).containerOf? id =
      if id = u.decls.length then some x.container else u.containerOf? id := by
  unfold containerOf?
  rw [decl?_addDecl]
  split
  · rfl
  · rw [Option.map_map]
    congr 1
    funext y
    show (if _ then _ else _ : Declaration).container = _
    split <;> rfl

/-- A new declaration is entered at the end of the list of its container and nowhere else. -/
theorem entries_addDecl (hn : x.nested = [])
    (hc : ∀ parent, x.container = .type parent → parent < u.decls.length) (c : Container) :
    (u.addDecl x).entries c =
      if x.container = c then u.entries c ++ [u.decls.length] else u.entries c := by
  cases c with
  | unit =>
    unfold addDecl entries
    cases x.container <;> rfl
  | type id =>
    rw [entries_type, decl?_addDecl]
    by_cases hid : id = u.decls.length
    · have hne : x.container ≠ .type id := fun h => by have := hc id h; omega
      rw [if_pos hid, if_neg hne, entries_type_eq_nil (Nat.le_of_eq hid.symm), ← hn]
      rfl
    · rw [if_neg hid]
      by_cases h : x.container = .type id
      · have hlt := hc id h
        rw [if_pos h, entries_type, decl?, List.getElem?_eq_getElem hlt]
        simp [h]
      · rw [if_neg h, entries_type]
        simp [h]

theorem Lists.addDecl {c : Container} {ids : List Nat} (h : u.Lists c ids) :
    (u.addDecl x).Lists c (if x.container = c then ids ++ [u.decls.length] else ids) := by
  have hlt : ∀ id ∈ ids, id < u.decls.length := fun id hid =>
    lt_length_of_containerOf? ((h.mem_iff id).mp hid)
  by_cases hc : x.container = c
  · rw [if_pos hc]
    constructor
    · rw [List.pairwise_append]
      refine ⟨h.increasing, List.pairwise_singleton _ _, fun a ha b hb => ?_⟩
      rw [List.mem_singleton.mp hb]
      exact hlt a ha
    · intro id
      rw [List.mem_append, List.mem_singleton, containerOf?_addDecl, h.mem_iff]
      by_cases hid : id = u.decls.length
      · simp [hid, hc]
      · simp [hid]
  · rw [if_neg hc]
    refine ⟨h.increasing, fun id => ?_⟩
    rw [containerOf?_addDecl, h.mem_iff]
    by_cases hid : id = u.decls.length
    · simp [hid, hc, containerOf?_eq_none (Nat.le_refl _)]
    · simp [hid]

theorem WellFormed.addDecl (h : u.WellFormed) (hn : x.nested = [])
    (hc : ∀ parent, x.container = .type parent → parent < u.decls.length) :
    (u.addDecl x).WellFormed where
  container id c hid := by
    rw [containerOf?_addDecl] at hid
    split at hid
    · next heq =>
      cases hid
      cases hx : x.container with
      | unit => exact .inl rfl
      | type parent => exact .inr ⟨parent, heq ▸ hc parent hx, rfl⟩
    · exact h.container id c hid
  lists c := by
    rw [entries_addDecl hn hc]
    exact (h.lists c).addDecl

theorem wellFormed_empty : empty.WellFormed where
  container id c h := by cases h
  lists c := by
    have hnil : empty.entries c = [] := by cases c <;> rfl
    rw [hnil]
    exact ⟨.nil, fun id => by constructor <;> intro h <;> cases h⟩

/-! ## Open types -/

theorem OpenChain.lt_length {ids : List Nat} (h : u.OpenChain ids) :
    ∀ id ∈ ids, id < u.decls.length := by
  induction h with
  | nil => intro id hid; cases hid
  | cons hc _ _ ih =>
    intro id hid
    rcases List.mem_cons.mp hid with rfl | hid
    · exact lt_length_of_containerOf? hc
    · exact ih id hid

theorem OpenChain.tail {ids : List Nat} (h : u.OpenChain ids) : u.OpenChain ids.tail := by
  cases h with
  | nil => exact .nil
  | cons _ _ hr => exact hr

/-- What is innermost open has begun. -/
theorem OpenChain.parent_lt_length {ids : List Nat} (h : u.OpenChain ids)
    (hx : x.container = .ofStack ids) :
    ∀ parent, x.container = .type parent → parent < u.decls.length := by
  intro parent hp
  rw [hx] at hp
  cases ids with
  | nil => cases hp
  | cons i rest =>
    cases hp
    exact h.lt_length _ List.mem_cons_self

/-- An open type comes after all types around it. -/
theorem OpenChain.lt_head (hu : u.WellFormed) {id : Nat} {rest : List Nat}
    (h : u.OpenChain (id :: rest)) : ∀ i ∈ rest, i < id := by
  induction rest generalizing id with
  | nil => intro i hi; cases hi
  | cons r rest ih =>
    cases h with
    | cons hc _ hr =>
      have hlt : r < id := hu.parent_lt hc
      intro i hi
      rcases List.mem_cons.mp hi with rfl | hi
      · exact hlt
      · exact Nat.lt_trans (ih hr i hi) hlt

/-- Open types stay open next to a declaration that begins in none of the containers in which they
stand. -/
theorem OpenChain.addDecl {ids : List Nat} (h : u.OpenChain ids) (hn : x.nested = [])
    (hc : ∀ parent, x.container = .type parent → parent < u.decls.length)
    (hne : ∀ id rest, id :: rest <:+ ids → x.container ≠ .ofStack rest) :
    (u.addDecl x).OpenChain ids := by
  induction h with
  | nil => exact .nil
  | @cons id rest hid hlast _ ih =>
    refine .cons ?_ ?_ (ih fun i r hr => hne i r (hr.trans (List.suffix_cons id rest)))
    · rw [containerOf?_addDecl, if_neg (Nat.ne_of_lt (lt_length_of_containerOf? hid))]
      exact hid
    · rw [entries_addDecl hn hc, if_neg (hne id rest (List.suffix_refl _))]
      exact hlast

/-- A declaration that begins in the innermost open type becomes the innermost open type. -/
theorem OpenChain.open {ids : List Nat} (hu : u.WellFormed) (h : u.OpenChain ids)
    (hn : x.nested = []) (hx : x.container = .ofStack ids) :
    (u.addDecl x).OpenChain (u.decls.length :: ids) := by
  have hc := h.parent_lt_length hx
  refine .cons ?_ ?_ (h.addDecl hn hc ?_)
  · rw [containerOf?_addDecl, if_pos rfl, hx]
  · rw [entries_addDecl hn hc, if_pos hx, List.getLast?_concat]
  · -- the containers of the open types lie strictly around the innermost one
    intro id rest hsuffix heq
    rw [hx] at heq
    cases ids with
    | nil => cases List.suffix_nil.mp hsuffix
    | cons i ids =>
      cases rest with
      | nil => cases heq
      | cons r rest =>
        cases heq
        have hmem : i ∈ ids := by
          rcases List.suffix_cons_iff.mp hsuffix with h1 | h1
          · cases h1
            exact List.mem_cons_self
          · exact h1.subset (List.mem_cons_of_mem _ List.mem_cons_self)
        exact Nat.lt_irrefl _ (h.lt_head hu i hmem)

end SourceUnit

end SourceModel
