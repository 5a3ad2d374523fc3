import SourceModel.Dump
import SourceModel.Proofs.Preorder
import SourceModel.Proofs.WrittenUnits

/-!
# The trees of a unit

The trees that are read off the table of a unit stand there as the containers say
(`DeclTree.StandsIn`), and in a unit that is read from events they are numbered in preorder
(`SourceUnit.allNumbered_forest`). Two walks down the tree are compared with the table.

1. The visit of all declarations follows every entry of every list (`SourceUnit.Walk`), ends, and
   meets the declarations in the order of the table.
2. The dump holds one object for each declaration, with its name, inside the object of the
   declaration in which it stands (`SourceUnit.DumpedAs`).
-/

namespace SourceModel

/-! ## Trees that stand in a unit -/

mutual

/-- The declaration at the root stands in the container, those below it stand one in the other, and
each lists those directly in it. -/
def DeclTree.StandsIn (u : SourceUnit) (c : Container) : DeclTree → Prop
  | .node id x nested =>
    u.decl? id = some x ∧ x.container = c ∧ x.nested = nested.map (·.id) ∧
      DeclTree.AllStandIn u (.type id) nested

def DeclTree.AllStandIn (u : SourceUnit) (c : Container) : List DeclTree → Prop
  | [] => True
  | t :: ts => t.StandsIn u c ∧ DeclTree.AllStandIn u c ts

end

namespace SourceUnit

variable {u : SourceUnit} {c : Container} {id : Nat}

theorem allStandIn_filterMap {ids : List Nat}
    (h : ∀ id ∈ ids, ∃ t, u.tree? id = some t ∧ t.id = id ∧ t.StandsIn u c) :
    (ids.filterMap u.tree?).map (·.id) = ids ∧
      DeclTree.AllStandIn u c (ids.filterMap u.tree?) := by
  induction ids with
  | nil => exact ⟨rfl, trivial⟩
  | cons id ids ih =>
    obtain ⟨t, ht, hid, hstands⟩ := h id (.head _)
    obtain ⟨hids, hall⟩ := ih fun i hi => h i (.tail _ hi)
    rw [List.filterMap_cons_some ht, List.map_cons, hids, hid]
    exact ⟨rfl, hstands, hall⟩

/-- Every declaration has a tree, from which no nested declaration is missing. -/
theorem exists_tree? (hu : u.WellFormed) (h : u.containerOf? id = some c) :
    ∃ t, u.tree? id = some t ∧ t.id = id ∧ t.StandsIn u c := by
  -- children come later in the table, so the induction is on what is left of it
  induction hn : u.decls.length - id using Nat.strongRecOn generalizing id c with
  | ind n ih =>
    obtain ⟨x, hx, rfl⟩ := Option.map_eq_some_iff.mp h
    have hlt := lt_length_of_containerOf? h
    have hchild : ∀ child ∈ x.nested,
        ∃ t, u.tree? child = some t ∧ t.id = child ∧ t.StandsIn u (.type id) := by
      intro child hmem
      have hentry : child ∈ u.entries (.type id) := by
        rw [entries_type, hx]
        exact hmem
      have hc := ((hu.lists (.type id)).mem_iff child).mp hentry
      have hparent := hu.parent_lt hc
      exact ih (u.decls.length - child) (by omega) hc rfl
    obtain ⟨hids, hall⟩ := allStandIn_filterMap hchild
    exact ⟨_, tree?_eq hu hx, rfl, hx, rfl, hids.symm, hall⟩

theorem WellFormed.forest (hu : u.WellFormed) :
    u.forest.map (·.id) = u.topLevel ∧ DeclTree.AllStandIn u .unit u.forest :=
  allStandIn_filterMap fun id hid => exists_tree? hu (((hu.lists .unit).mem_iff id).mp hid)

end SourceUnit

/-! ## Numbers in preorder -/

mutual

theorem DeclTree.Numbered.of_range' {u : SourceUnit} {c : Container} {n : Nat} (t : DeclTree)
    (hs : t.StandsIn u c) (h : t.preorder.map (·.1) = List.range' n t.preorder.length) :
    t.Numbered n := by
  cases t with
  | node id x nested =>
    obtain ⟨-, -, hnested, hchildren⟩ := hs
    rw [DeclTree.preorder, List.map_cons, List.length_cons, List.range'_succ] at h
    obtain ⟨hid, hrest⟩ := List.cons.inj h
    exact ⟨hid, hnested, DeclTree.AllNumbered.of_range' nested hchildren hrest⟩

theorem DeclTree.AllNumbered.of_range' {u : SourceUnit} {c : Container} {n : Nat}
    (ts : List DeclTree) (hs : DeclTree.AllStandIn u c ts)
    (h : (DeclTree.preorderList ts).map (·.1) =
      List.range' n (DeclTree.preorderList ts).length) : DeclTree.AllNumbered n ts := by
  cases ts with
  | nil => trivial
  | cons t ts =>
    obtain ⟨ht, hts⟩ := hs
    rw [DeclTree.preorderList, List.map_append, List.length_append,
      ← List.range'_append_1] at h
    obtain ⟨hfirst, hrest⟩ := List.append_inj h (by rw [List.length_map, List.length_range'])
    exact ⟨DeclTree.Numbered.of_range' t ht hfirst, DeclTree.AllNumbered.of_range' ts hts hrest⟩

end

namespace SourceUnit

variable {u : SourceUnit} {c : Container} {id : Nat}

theorem allNumbered_forest (hu : u.WellFormed) (ho : u.InOrder) :
    DeclTree.AllNumbered 0 u.forest := by
  refine DeclTree.AllNumbered.of_range' u.forest hu.forest.2 ?_
  have hvisit := map_visit_eq_range hu ho
  have hlen := congrArg List.length hvisit
  rw [List.length_map, List.length_range] at hlen
  rw [show (DeclTree.preorderList u.forest).length = u.decls.length from hlen,
    ← List.range_eq_range']
  exact hvisit

/-! ## The visit -/

/-- The declarations that are met by going through the entries of a list one after the other, and
after each of them through the list of the declaration that it names. -/
inductive Walk (u : SourceUnit) : List Nat → List (Nat × Declaration) → Prop where
  | nil : Walk u [] []
  | cons {id : Nat} {ids : List Nat} {x : Declaration} {inside after : List (Nat × Declaration)} :
      u.decl? id = some x → Walk u x.nested inside → Walk u ids after →
      Walk u (id :: ids) ((id, x) :: inside ++ after)

theorem Walk.unique {ids : List Nat} {met met' : List (Nat × Declaration)} (h : u.Walk ids met)
    (h' : u.Walk ids met') : met' = met := by
  induction h generalizing met' with
  | nil => cases h'; rfl
  | cons hx _ _ ihinside ihafter =>
    cases h' with
    | cons hx' hinside hafter =>
      cases hx.symm.trans hx'
      rw [ihinside hinside, ihafter hafter]

end SourceUnit

mutual

theorem DeclTree.StandsIn.walk {u : SourceUnit} {c : Container} {ids : List Nat}
    {after : List (Nat × Declaration)} (t : DeclTree) (h : t.StandsIn u c)
    (hafter : u.Walk ids after) : u.Walk (t.id :: ids) (t.preorder ++ after) := by
  cases t with
  | node id x nested =>
    obtain ⟨hx, -, hnested, hchildren⟩ := h
    have hinside := DeclTree.AllStandIn.walk nested hchildren
    rw [← hnested] at hinside
    exact .cons hx hinside hafter

theorem DeclTree.AllStandIn.walk {u : SourceUnit} {c : Container} (ts : List DeclTree)
    (h : DeclTree.AllStandIn u c ts) :
    u.Walk (ts.map (·.id)) (DeclTree.preorderList ts) := by
  cases ts with
  | nil => exact .nil
  | cons t ts => exact DeclTree.StandsIn.walk t h.1 (DeclTree.AllStandIn.walk ts h.2)

end

namespace SourceUnit

variable {u : SourceUnit} {c : Container} {id : Nat}

theorem walk_topLevel_iff (hu : u.WellFormed) {met : List (Nat × Declaration)} :
    u.Walk u.topLevel met ↔ met = u.visit := by
  obtain ⟨hids, hall⟩ := hu.forest
  have hwalk : u.Walk u.topLevel u.visit := by
    rw [← hids]
    exact DeclTree.AllStandIn.walk u.forest hall
  constructor
  · exact fun h => hwalk.unique h
  · rintro rfl
    exact hwalk

theorem map_snd_visit (hu : u.WellFormed) (ho : u.InOrder) : u.visit.map (·.2) = u.decls := by
  have hfst := map_visit_eq_range hu ho
  have hlen := congrArg List.length hfst
  rw [List.length_map, List.length_range] at hlen
  refine List.ext_getElem (by rw [List.length_map, hlen]) fun i hi hi' => ?_
  rw [List.length_map] at hi
  have hid : (u.visit[i]).1 = i := by
    have hget : (u.visit.map (·.1))[i]? = (List.range u.decls.length)[i]? := by rw [hfst]
    rw [List.getElem?_map, List.getElem?_eq_getElem hi, List.getElem?_range hi'] at hget
    exact Option.some.inj hget
  have hdecl : u.decl? i = some (u.visit[i]).2 := by
    refine decl?_of_mem_visit ?_
    nth_rewrite 1 [← hid]
    exact List.getElem_mem hi
  rw [List.getElem_map]
  exact Option.some.inj (hdecl.symm.trans (List.getElem?_eq_getElem hi'))

/-! ## The dump -/

/-- The declarations that stand directly in a container, in increasing order. -/
def standingIn (u : SourceUnit) (c : Container) : List Nat :=
  (List.range u.typeCount).filter fun id => u.containerOf? id = some c

theorem Lists.eq_standingIn {ids : List Nat} (h : u.Lists c ids) : ids = u.standingIn c := by
  have hinc : (u.standingIn c).Pairwise (· < ·) := List.pairwise_lt_range.filter _
  refine h.increasing.eq_of_mem_iff hinc fun id => ?_
  rw [h.mem_iff, standingIn, List.mem_filter, List.mem_range, decide_eq_true_iff]
  exact ⟨fun hc => ⟨lt_length_of_containerOf? hc, hc⟩, And.right⟩

theorem WellFormed.nested_eq_standingIn (hu : u.WellFormed) {x : Declaration}
    (hx : u.decl? id = some x) : x.nested = u.standingIn (.type id) := by
  have h := (hu.lists (.type id)).eq_standingIn
  rw [entries_type, hx] at h
  exact h

end SourceUnit

/-- All values under a key, in the order of the fields. -/
def Document.valuesOf (key : String) (fields : List (String × Document)) : List Document :=
  (fields.filter (·.1 = key)).map (·.2)

/-- The fields of the object for a declaration. The key "types" has the documents of the declarations
directly in it, and is left out if there are none. -/
structure Declaration.IsObject (x : Declaration) (types : List Document)
    (fields : List (String × Document)) : Prop where
  name : Document.valuesOf "name" fields = [.string x.name]
  types : Document.valuesOf "types" fields = if types = [] then [] else [.array types]
  others : fields.filter (·.1 ≠ "types") = x.dumpFields

namespace SourceUnit

/-- The documents are objects for the given declarations, one for each, and each holds the documents
of the declarations directly in that declaration. The last list has the numbers of all declarations
in the documents, in the order of the text. -/
inductive DumpedAs (u : SourceUnit) : List Nat → List Document → List Nat → Prop where
  | nil : DumpedAs u [] [] []
  | cons {id : Nat} {ids inside after : List Nat} {x : Declaration} {types docs : List Document}
      {fields : List (String × Document)} :
      u.decl? id = some x → DumpedAs u (u.standingIn (.type id)) types inside →
      x.IsObject types fields → DumpedAs u ids docs after →
      DumpedAs u (id :: ids) (.object fields :: docs) (id :: inside ++ after)

end SourceUnit

theorem Document.valuesOf_eq_nil {key : String} {fields : List (String × Document)}
    (h : ∀ f ∈ fields, f.1 ≠ key) : valuesOf key fields = [] := by
  unfold valuesOf
  rw [List.map_eq_nil_iff, List.filter_eq_nil_iff]
  simpa using h

theorem Document.valuesOf_append (key : String) (fields more : List (String × Document)) :
    valuesOf key (fields ++ more) = valuesOf key fields ++ valuesOf key more := by
  unfold valuesOf
  rw [List.filter_append, List.map_append]

theorem Document.valuesOf_nonempty (key : String) (items : List Document) :
    valuesOf key (nonempty key items) = if items = [] then [] else [.array items] := by
  cases items <;> simp [valuesOf, nonempty]

theorem Body.key_of_mem_dumpFields {b : Body} {f : String × Document} (h : f ∈ b.dumpFields) :
    f.1 ∈ ["kind", "superclass", "constants", "constructors", "fields"] := by
  have hkeys : b.dumpFields.map (·.1) ⊆
      ["kind", "superclass", "constants", "constructors", "fields"] := by
    cases b with
    | classBody superclass => cases superclass <;> simp [dumpFields, Document.optional]
    | _ => simp [dumpFields]
  exact hkeys (List.mem_map_of_mem h)

theorem Declaration.key_of_mem_dumpFields {x : Declaration} {f : String × Document}
    (h : f ∈ x.dumpFields) : f.1 ≠ "types" := by
  rcases List.mem_append.mp h with h | h
  · simp only [List.mem_cons, List.not_mem_nil, or_false] at h
    rcases h with rfl | rfl | rfl | rfl | rfl | rfl <;> simp
  · intro htypes
    have hkey := Body.key_of_mem_dumpFields h
    rw [htypes] at hkey
    exact absurd hkey (by decide)

theorem Declaration.isObject_dump (x : Declaration) (types : List Document) :
    x.IsObject types (x.dumpFields ++ Document.nonempty "types" types) where
  name := by
    have hbody : Document.valuesOf "name" x.body.dumpFields = [] := by
      refine Document.valuesOf_eq_nil fun f hf hname => ?_
      have hkey := Body.key_of_mem_dumpFields hf
      rw [hname] at hkey
      exact absurd hkey (by decide)
    have hnested : Document.valuesOf "name" (Document.nonempty "types" types) = [] := by
      cases types <;> rfl
    rw [dumpFields, Document.valuesOf_append, Document.valuesOf_append, hbody, hnested]
    rfl
  types := by
    have hown : Document.valuesOf "types" x.dumpFields = [] :=
      Document.valuesOf_eq_nil fun f hf => key_of_mem_dumpFields hf
    rw [Document.valuesOf_append, hown, Document.valuesOf_nonempty, List.nil_append]
  others := by
    have hown : x.dumpFields.filter (·.1 ≠ "types") = x.dumpFields :=
      List.filter_eq_self.mpr fun f hf => decide_eq_true (key_of_mem_dumpFields hf)
    have hnested : (Document.nonempty "types" types).filter (·.1 ≠ "types") = [] := by
      cases types <;> rfl
    rw [List.filter_append, hown, hnested, List.append_nil]

mutual

theorem DeclTree.StandsIn.dumpedAs {u : SourceUnit} {c : Container} (hu : u.WellFormed)
    {ids after : List Nat} {docs : List Document} (t : DeclTree) (h : t.StandsIn u c)
    (hafter : u.DumpedAs ids docs after) :
    u.DumpedAs (t.id :: ids) (t.dump :: docs) (t.preorder.map (·.1) ++ after) := by
  cases t with
  | node id x nested =>
    obtain ⟨hx, -, hnested, hchildren⟩ := h
    have hinside := DeclTree.AllStandIn.dumpedAs hu nested hchildren
    rw [← hnested, hu.nested_eq_standingIn hx] at hinside
    exact .cons hx hinside (x.isObject_dump _) hafter

theorem DeclTree.AllStandIn.dumpedAs {u : SourceUnit} {c : Container} (hu : u.WellFormed)
    (ts : List DeclTree) (h : DeclTree.AllStandIn u c ts) :
    u.DumpedAs (ts.map (·.id)) (DeclTree.dumpList ts)
      ((DeclTree.preorderList ts).map (·.1)) := by
  cases ts with
  | nil => exact .nil
  | cons t ts =>
    rw [DeclTree.preorderList, List.map_append]
    exact DeclTree.StandsIn.dumpedAs hu t h.1 (DeclTree.AllStandIn.dumpedAs hu ts h.2)

end

namespace SourceUnit

variable {u : SourceUnit} {strict : Bool} {events : List Event}

/-- In a unit that is read from events, the walk through the lists of declarations ends and meets
the table from front to back. The dump holds each declaration once, in the same order, inside the
declaration in which it stands. -/
theorem walk_and_dump_follow_table (h : SourceUnit.ofEvents strict events = .ok u) :
    (∀ met, u.Walk u.topLevel met ↔ met = u.visit) ∧
    u.visit.map (·.1) = List.range u.typeCount ∧ u.visit.map (·.2) = u.decls ∧
    ∃ fields types, u.dump = .object fields ∧ Document.valuesOf "types" fields = [.array types] ∧
      u.DumpedAs (u.standingIn .unit) types (List.range u.typeCount) := by
  obtain ⟨hu, ho⟩ := wellFormed_of_ofEvents h
  refine ⟨fun met => walk_topLevel_iff hu, map_visit_eq_range hu ho, map_snd_visit hu ho,
    _, DeclTree.dumpList u.forest, rfl, ?_, ?_⟩
  · cases u.package <;> rfl
  · obtain ⟨hids, hall⟩ := hu.forest
    have htop : u.topLevel = u.standingIn .unit := (hu.lists .unit).eq_standingIn
    have hdump := DeclTree.AllStandIn.dumpedAs hu u.forest hall
    rw [hids, htop] at hdump
    rw [typeCount, ← map_visit_eq_range hu ho]
    exact hdump

/-- Two top-level types, the first with a class two levels deep and an enum beside it. The object
of the first has the objects of the class and the enum under "types", that of the enum has no such
key. -/
theorem walk_and_dump_of_nested_classes :
    let events : List Event := [.enterType .classType "A", .enterType .classType "B",
      .enterType .classType "C", .exitType, .exitType, .enterType .enumType "D", .exitType,
      .exitType, .enterType .interfaceType "E", .exitType]
    ∃ u fields a b d e, SourceUnit.ofEvents true events = .ok u ∧
      u.visit.map (·.1) = [0, 1, 2, 3, 4] ∧
      u.standingIn .unit = [0, 4] ∧ u.standingIn (.type 0) = [1, 3] ∧
      u.dump = .object fields ∧ Document.valuesOf "types" fields = [.array [a, e]] ∧
      u.DumpedAs [0, 4] [a, e] [0, 1, 2, 3, 4] ∧
      a = .object [("name", .string "A"), ("modifiers", .array []), ("annotations", .array []),
        ("type_params", .array []), ("interfaces", .array []), ("methods", .array []),
        ("kind", .string "Class"), ("constructors", .array []), ("fields", .array []),
        ("types", .array [b, d])] ∧
      d = .object [("name", .string "D"), ("modifiers", .array []), ("annotations", .array []),
        ("type_params", .array []), ("interfaces", .array []), ("methods", .array []),
        ("kind", .string "Enum"), ("constants", .array []), ("constructors", .array []),
        ("fields", .array [])] := by
  intro events
  obtain ⟨u, a, b, d, e, hu, htop, hnested, hcount, hfields, ha, hd⟩ : ∃ u a b d e,
      SourceUnit.ofEvents true events = .ok u ∧
      u.standingIn .unit = [0, 4] ∧ u.standingIn (.type 0) = [1, 3] ∧
      List.range u.typeCount = [0, 1, 2, 3, 4] ∧
      u.dump = .object [("imports", .array []), ("types", .array [a, e])] ∧
      a = .object [("name", .string "A"), ("modifiers", .array []), ("annotations", .array []),
        ("type_params", .array []), ("interfaces", .array []), ("methods", .array []),
        ("kind", .string "Class"), ("constructors", .array []), ("fields", .array []),
        ("types", .array [b, d])] ∧
      d = .object [("name", .string "D"), ("modifiers", .array []), ("annotations", .array []),
        ("type_params", .array []), ("interfaces", .array []), ("methods", .array []),
        ("kind", .string "Enum"), ("constants", .array []), ("constructors", .array []),
        ("fields", .array [])] :=
    ⟨⟨none, [], [{ Declaration.empty .classType "A" .unit with nested := [1, 3] },
        { Declaration.empty .classType "B" (.type 0) with nested := [2] },
        .empty .classType "C" (.type 1), .empty .enumType "D" (.type 0),
        .empty .interfaceType "E" .unit], [0, 4]⟩,
      _, _, _, _, by rfl, by decide, by decide, by decide, by cbv, by rfl, by rfl⟩
  obtain ⟨-, hvisit, -, fields, types, hdump, htypes, hdumped⟩ := walk_and_dump_follow_table hu
  cases hdump.symm.trans hfields
  obtain rfl : types = [a, e] := by
    change [Document.array [a, e]] = [.array types] at htypes
    cases htypes
    rfl
  rw [hcount] at hvisit
  rw [htop, hcount] at hdumped
  exact ⟨u, _, a, b, d, e, hu, hvisit, htop, hnested, hfields, htypes, hdumped, ha, hd⟩

end SourceUnit

end SourceModel
