import Mathlib.Data.List.Lex
import SourceModel.Proofs.Places

/-!
# The order of references

The references of a declaration are held by its elements, which have annotations, and by its slots,
which have types. A rank gives each holder its place in the declaration. The references are in the
order of the ranks of their holders, and each holder has its own ones there, all of them and in
their order (`Declaration.ListsReferences`). No other list is like that
(`Declaration.listsReferences_iff`).
-/

namespace SourceModel

/-! ## Holders -/

inductive Holder where
  | element (e : Element)
  | slot (s : Slot)
deriving DecidableEq

/-- The place of a holder in its declaration. Ranks are compared like words in a dictionary. -/
def Holder.rank : Holder → List Nat
  | element .type => [0]
  | element (.typeParam i) => [1, i, 0]
  | slot (.bound i j) => [1, i, 1, j]
  | slot .superclass => [2]
  | slot (.interface i) => [3, i]
  | element (.field i) => [4, i, 0]
  | slot (.field i) => [4, i, 1]
  | element (.constant i) => [5, i]
  | element (.constructor i) => [6, i, 0]
  | element (.constructorParam i j) => [6, i, 1, j, 0]
  | slot (.constructorParam i j) => [6, i, 1, j, 1]
  | element (.method i) => [7, i, 0]
  | slot (.methodReturn i) => [7, i, 1]
  | element (.methodParam i j) => [7, i, 2, j, 0]
  | slot (.methodParam i j) => [7, i, 2, j, 1]

theorem Holder.eq_of_rank_eq {g h : Holder} (hr : g.rank = h.rank) : g = h := by
  unfold rank at hr
  split at hr <;> split at hr <;> simp_all

def Reference.holder : Reference → Holder
  | .annotationUse element _ _ => .element element
  | .type slot _ => .slot slot

/-- The annotations of an element, or the named types in the type of a slot. There are none if the
declaration has no such holder. -/
def Declaration.heldBy (d : Declaration) : Holder → List Reference
  | .element e => ((d.annotationsAt? e).map (Reference.ofAnnotations e)).getD []
  | .slot s => ((d.spotAt? s).map (Reference.ofSpot s)).getD []

def Reference.Before (r s : Reference) : Prop :=
  r.holder.rank ≤ s.holder.rank

/-- The list has the references of a declaration in their order. -/
structure Declaration.ListsReferences (d : Declaration) (rs : List Reference) : Prop where
  sorted : rs.Pairwise Reference.Before
  complete : ∀ h, rs.filter (·.holder = h) = d.heldBy h

namespace Reference

theorem mem_ofAnnotations_iff {element : Element} {uses : List AnnotationUse} {i : Nat}
    {use : AnnotationUse} :
    .annotationUse element i use ∈ ofAnnotations element uses ↔ uses[i]? = some use := by
  simp [ofAnnotations, List.mk_mem_zipIdx_iff_getElem?]

theorem mem_ofSpot_iff {slot : Slot} {spot : Spot} {o : Occurrence} :
    .type slot o ∈ ofSpot slot spot ↔ o ∈ spot.occurrences := by
  simp [ofSpot]

theorem holder_of_mem_ofAnnotations {element : Element} {uses : List AnnotationUse} :
    ∀ r ∈ ofAnnotations element uses, r.holder = .element element := by
  intro r hr
  obtain ⟨_, -, rfl⟩ := List.mem_map.mp hr
  rfl

theorem holder_of_mem_ofSpot {slot : Slot} {spot : Spot} :
    ∀ r ∈ ofSpot slot spot, r.holder = .slot slot := by
  intro r hr
  obtain ⟨_, -, rfl⟩ := List.mem_map.mp hr
  rfl

/-! ## Sorted lists -/

/-- The list is sorted, and behind `front` the ranks go on with numbers from `lo` to below `hi`. -/
structure SortedFrom (front : List Nat) (lo hi : Nat) (rs : List Reference) : Prop where
  sorted : rs.Pairwise Before
  rank : ∀ r ∈ rs, ∃ k rest, r.holder.rank = front ++ k :: rest ∧ lo ≤ k ∧ k < hi

section Sorted

variable {front : List Nat} {lo hi k : Nat} {rs ss : List Reference}

theorem before_of_lt {r s : Reference} {l : Nat} {rest rest' : List Nat}
    (hr : r.holder.rank = front ++ k :: rest) (hs : s.holder.rank = front ++ l :: rest')
    (h : k < l) : r.Before s := by
  unfold Before
  rw [hr, hs]
  exact le_of_lt (List.Lex.append_left _ (.rel h) front)

theorem SortedFrom.append (hr : SortedFrom front 0 k rs) (hs : SortedFrom front k (k + 1) ss) :
    SortedFrom front 0 (k + 1) (rs ++ ss) where
  sorted := by
    refine List.pairwise_append.mpr ⟨hr.sorted, hs.sorted, fun r hrmem s hsmem => ?_⟩
    obtain ⟨i, _, hrank, -, hi⟩ := hr.rank r hrmem
    obtain ⟨j, _, hrank', hj, -⟩ := hs.rank s hsmem
    exact before_of_lt hrank hrank' (Nat.lt_of_lt_of_le hi hj)
  rank r h := by
    rcases List.mem_append.mp h with h | h
    · obtain ⟨i, rest, hrank, hle, hlt⟩ := hr.rank r h
      exact ⟨i, rest, hrank, hle, Nat.lt_succ_of_lt hlt⟩
    · obtain ⟨i, rest, hrank, -, hlt⟩ := hs.rank r h
      exact ⟨i, rest, hrank, Nat.zero_le i, hlt⟩

theorem SortedFrom.nest (h : SortedFrom (front ++ [k]) lo hi rs) :
    SortedFrom front k (k + 1) rs where
  sorted := h.sorted
  rank r hr := by
    obtain ⟨l, rest, hrank, -, -⟩ := h.rank r hr
    refine ⟨k, l :: rest, ?_, Nat.le_refl k, Nat.lt_succ_self k⟩
    rw [hrank, List.append_assoc]
    rfl

theorem sortedFrom_of_holder_eq {h : Holder} (hrs : ∀ r ∈ rs, r.holder = h)
    (hrank : h.rank = front ++ [k]) : SortedFrom front k (k + 1) rs where
  sorted := by
    refine List.pairwise_of_forall_mem_list fun r hr s hs => ?_
    unfold Before
    rw [hrs r hr, hrs s hs]
  rank r hr := ⟨k, [], hrs r hr ▸ hrank, Nat.le_refl k, Nat.lt_succ_self k⟩

theorem sortedFrom_ofParts {α : Type} (parts : List α) {f : α → Nat → List Reference}
    (h : ∀ a i, SortedFrom front i (i + 1) (f a i)) :
    SortedFrom front 0 parts.length (ofParts parts f) where
  sorted := by
    refine List.pairwise_flatMap.mpr ⟨fun x _ => (h x.1 x.2).sorted, ?_⟩
    have hnumbers : parts.zipIdx.Pairwise fun x y => x.2 < y.2 := by
      rw [← List.pairwise_map (f := Prod.snd), List.zipIdx_map_snd]
      exact List.pairwise_lt_range'
    refine hnumbers.imp fun {x y} hxy r hr s hs => ?_
    obtain ⟨k, _, hrank, -, hk⟩ := (h x.1 x.2).rank r hr
    obtain ⟨l, _, hrank', hl, -⟩ := (h y.1 y.2).rank s hs
    exact before_of_lt hrank hrank' (by omega)
  rank := by
    intro r hr
    obtain ⟨x, hx, hr⟩ := List.mem_flatMap.mp hr
    obtain ⟨k, rest, hrank, -, hk⟩ := (h x.1 x.2).rank r hr
    have hlt := List.snd_lt_of_mem_zipIdx hx
    exact ⟨k, rest, hrank, Nat.zero_le k, by omega⟩

end Sorted

/-! ## The references of one holder -/

section Filter

variable {g h : Holder} {rs : List Reference} {α : Type}

theorem filter_of_holder_eq (hrs : ∀ r ∈ rs, r.holder = g) :
    rs.filter (·.holder = h) = if h = g then rs else [] := by
  split
  · next heq =>
    refine List.filter_eq_self.mpr fun r hr => ?_
    rw [hrs r hr, heq]
    exact decide_eq_true rfl
  · next hne =>
    refine List.filter_eq_nil_iff.mpr fun r hr => ?_
    rw [hrs r hr, decide_eq_true_eq]
    exact Ne.symm hne

theorem filter_ofAnnotations (element : Element) (uses : List AnnotationUse) :
    (ofAnnotations element uses).filter (·.holder = h) =
      if h = .element element then ofAnnotations element uses else [] :=
  filter_of_holder_eq holder_of_mem_ofAnnotations

theorem filter_ofSpot (slot : Slot) (spot : Spot) :
    (ofSpot slot spot).filter (·.holder = h) = if h = .slot slot then ofSpot slot spot else [] :=
  filter_of_holder_eq holder_of_mem_ofSpot

theorem filter_ofParts (parts : List α) (f : α → Nat → List Reference) (q : Reference → Bool) :
    (ofParts parts f).filter q = ofParts parts fun a i => (f a i).filter q :=
  List.filter_flatMap

theorem ofParts_nil (parts : List α) : (ofParts parts fun _ _ => []) = [] :=
  List.flatMap_eq_nil_iff.mpr fun _ _ => rfl

theorem ofParts_ite (parts : List α) (f : α → Nat → List Reference) (c : Prop) [Decidable c] :
    (ofParts parts fun a i => if c then f a i else []) = if c then ofParts parts f else [] := by
  split
  · rfl
  · exact ofParts_nil parts

/-- Of parts that are numbered from `n` one is left. -/
theorem flatMap_zipIdx_ite_eq (parts : List α) (f : α → Nat → List Reference) (n k : Nat) :
    ((parts.zipIdx n).flatMap fun x => if n + k = x.2 then f x.1 x.2 else []) =
      (parts[k]?.map fun a => f a (n + k)).getD [] := by
  induction parts generalizing n k with
  | nil => rfl
  | cons a parts ih =>
    rw [List.zipIdx_cons, List.flatMap_cons]
    cases k with
    | zero =>
      have hrest : ((parts.zipIdx (n + 1)).flatMap fun x =>
          if n + 0 = x.2 then f x.1 x.2 else []) = [] := by
        refine List.flatMap_eq_nil_iff.mpr fun x hx => if_neg ?_
        have := List.le_snd_of_mem_zipIdx hx
        omega
      rw [hrest, List.append_nil]
      exact if_pos rfl
    | succ k =>
      have hfirst : n + (k + 1) ≠ n := by omega
      rw [if_neg hfirst, List.nil_append, List.getElem?_cons_succ, ← Nat.succ_add_eq_add_succ]
      exact ih (n + 1) k

theorem ofParts_ite_eq (parts : List α) (f : α → Nat → List Reference) (k : Nat) :
    (ofParts parts fun a i => if k = i then f a i else []) =
      (parts[k]?.map fun a => f a k).getD [] := by
  have hzero := flatMap_zipIdx_ite_eq parts f 0 k
  rw [Nat.zero_add] at hzero
  exact hzero

theorem ofParts_ofParts_ite_eq {β : Type} (parts : List α) (g : α → List β)
    (f : β → Nat → Nat → List Reference) (k l : Nat) :
    (ofParts parts fun a i => ofParts (g a) fun b j => if k = i ∧ l = j then f b i j else []) =
      ((parts[k]?.bind fun a => (g a)[l]?).map fun b => f b k l).getD [] := by
  have hsplit : ∀ i j b, (if k = i ∧ l = j then f b i j else []) =
      if k = i then if l = j then f b i j else [] else [] := by
    intro i j b
    by_cases hi : k = i
    · simp [hi]
    · simp [hi]
  simp only [hsplit, ofParts_ite]
  rw [ofParts_ite_eq]
  cases parts[k]? with
  | none => rfl
  | some a => exact ofParts_ite_eq (g a) (fun b j => f b k j) l

end Filter

/-! ## Two sorted lists -/

theorem mem_of_filter_eq {r : Reference} {rs ss : List Reference}
    (h : rs.filter (·.holder = r.holder) = ss.filter (·.holder = r.holder)) (hr : r ∈ rs) :
    r ∈ ss := by
  have hself : r ∈ rs.filter (·.holder = r.holder) :=
    List.mem_filter.mpr ⟨hr, decide_eq_true rfl⟩
  rw [h] at hself
  exact (List.mem_filter.mp hself).1

theorem before_of_mem_cons {r s : Reference} {rs : List Reference}
    (h : (r :: rs).Pairwise Before) (hs : s ∈ r :: rs) : r.Before s := by
  rcases List.mem_cons.mp hs with rfl | hs
  · exact le_refl _
  · exact (List.pairwise_cons.mp h).1 s hs

/-- Lists that are sorted and have the same references of each holder are the same. -/
theorem eq_of_sorted {rs ss : List Reference} (hrs : rs.Pairwise Before) (hss : ss.Pairwise Before)
    (h : ∀ g, rs.filter (·.holder = g) = ss.filter (·.holder = g)) : rs = ss := by
  induction rs generalizing ss with
  | nil =>
    refine (List.eq_nil_iff_forall_not_mem.mpr fun s hs => ?_).symm
    exact List.not_mem_nil (mem_of_filter_eq (h s.holder).symm hs)
  | cons r rs ih =>
    cases ss with
    | nil => exact absurd (mem_of_filter_eq (h r.holder) List.mem_cons_self) List.not_mem_nil
    | cons s ss =>
      -- each list has the first one of the other, so the two have one holder
      have hle := before_of_mem_cons hrs (mem_of_filter_eq (h s.holder).symm List.mem_cons_self)
      have hge := before_of_mem_cons hss (mem_of_filter_eq (h r.holder) List.mem_cons_self)
      have hholder : r.holder = s.holder := Holder.eq_of_rank_eq (le_antisymm hle hge)
      have hfirst := h s.holder
      simp only [List.filter_cons, hholder, decide_true, if_true] at hfirst
      obtain ⟨rfl, -⟩ := List.cons.inj hfirst
      refine congrArg (r :: ·) (ih hrs.of_cons hss.of_cons fun g => ?_)
      have hg := h g
      rw [List.filter_cons, List.filter_cons] at hg
      split at hg
      · exact List.tail_eq_of_cons_eq hg
      · exact hg

end Reference

/-! ## The references of a declaration -/

namespace Declaration

open Reference

theorem superclass_eq_heldBy (d : Declaration) :
    (d.superclass.toList.flatMap fun t => ofSpot .superclass (.named t)) =
      d.heldBy (.slot .superclass) := by
  unfold heldBy spotAt?
  cases d.superclass with
  | none => rfl
  | some t => exact List.append_nil _

theorem holder_of_mem_heldBy {d : Declaration} {h : Holder} : ∀ r ∈ d.heldBy h, r.holder = h := by
  intro r hr
  cases h with
  | element e =>
    rw [heldBy] at hr
    cases hat : d.annotationsAt? e with
    | none => rw [hat] at hr; cases hr
    | some uses => exact holder_of_mem_ofAnnotations r (hat ▸ hr)
  | slot s =>
    rw [heldBy] at hr
    cases hat : d.spotAt? s with
    | none => rw [hat] at hr; cases hr
    | some spot => exact holder_of_mem_ofSpot r (hat ▸ hr)

theorem sortedFrom_annotated {front : List Nat} {element : Element} {slot : Slot}
    (helement : (Holder.element element).rank = front ++ [0])
    (hslot : (Holder.slot slot).rank = front ++ [1]) (uses : List AnnotationUse) (ty : Ty) :
    SortedFrom front 0 2 (ofAnnotations element uses ++ ofSpot slot (.type ty)) :=
  .append (sortedFrom_of_holder_eq holder_of_mem_ofAnnotations helement)
    (sortedFrom_of_holder_eq holder_of_mem_ofSpot hslot)

theorem sortedFrom_references (d : Declaration) : SortedFrom [] 0 8 d.references := by
  unfold references
  rw [superclass_eq_heldBy]
  refine .append (.append (.append (.append (.append (.append (.append ?_ ?_) ?_) ?_) ?_) ?_) ?_) ?_
  · exact sortedFrom_of_holder_eq holder_of_mem_ofAnnotations rfl
  · refine .nest (sortedFrom_ofParts _ fun param i => ?_)
    have hannotations : SortedFrom [1, i] 0 1 (ofAnnotations (.typeParam i) param.annotations) :=
      sortedFrom_of_holder_eq holder_of_mem_ofAnnotations rfl
    refine .nest (hannotations.append (.nest (sortedFrom_ofParts _ fun b j => ?_)))
    exact sortedFrom_of_holder_eq holder_of_mem_ofSpot rfl
  · exact sortedFrom_of_holder_eq holder_of_mem_heldBy rfl
  · exact .nest (sortedFrom_ofParts _ fun t i => sortedFrom_of_holder_eq holder_of_mem_ofSpot rfl)
  · exact .nest (sortedFrom_ofParts _ fun f i => .nest (sortedFrom_annotated rfl rfl _ _))
  · exact .nest (sortedFrom_ofParts _ fun c i =>
      sortedFrom_of_holder_eq holder_of_mem_ofAnnotations rfl)
  · refine .nest (sortedFrom_ofParts _ fun c i => ?_)
    have hannotations : SortedFrom [6, i] 0 1 (ofAnnotations (.constructor i) c.annotations) :=
      sortedFrom_of_holder_eq holder_of_mem_ofAnnotations rfl
    refine .nest (hannotations.append (.nest (sortedFrom_ofParts _ fun param j => ?_)))
    exact .nest (sortedFrom_annotated rfl rfl _ _)
  · refine .nest (sortedFrom_ofParts _ fun m i => ?_)
    have hhead : SortedFrom [7, i] 0 2 (ofAnnotations (.method i) m.annotations ++
        ofSpot (.methodReturn i) (.type m.returnType)) := sortedFrom_annotated rfl rfl _ _
    refine .nest (hhead.append (.nest (sortedFrom_ofParts _ fun param j => ?_)))
    exact .nest (sortedFrom_annotated rfl rfl _ _)

theorem filter_references (d : Declaration) (h : Holder) :
    d.references.filter (·.holder = h) = d.heldBy h := by
  unfold references
  simp only [superclass_eq_heldBy, List.filter_append, filter_ofParts, filter_ofAnnotations,
    filter_ofSpot, filter_of_holder_eq holder_of_mem_heldBy]
  rcases h with e | s
  · cases e
    all_goals simp [heldBy, annotationsAt?, ofParts_nil, ofParts_ite_eq, ofParts_ofParts_ite_eq,
      Function.comp_def]
  · cases s
    all_goals simp [heldBy, spotAt?, ofParts_nil, ofParts_ite_eq, ofParts_ofParts_ite_eq,
      Function.comp_def]

/-- The references of a declaration are all that stand in it, apart from qualifiers. -/
theorem mem_references_iff {d : Declaration} {r : Reference} :
    r ∈ d.references ↔ r.StandsIn d ∧ ¬ r.IsQualifier := by
  have hheld : r ∈ d.references ↔ r ∈ d.heldBy r.holder := by
    rw [← filter_references, List.mem_filter]
    simp
  rw [hheld]
  cases r with
  | annotationUse element i use =>
    simp only [heldBy, holder, StandsIn, IsQualifier, annotationAt?, not_false_eq_true, and_true]
    cases d.annotationsAt? element with
    | none => simp
    | some uses => exact mem_ofAnnotations_iff
  | type slot o =>
    simp only [heldBy, holder, StandsIn, IsQualifier]
    cases d.spotAt? slot with
    | none => simp
    | some spot => exact mem_ofSpot_iff.trans Spot.mem_occurrences_iff

theorem standsIn_of_mem_references (d : Declaration) : ∀ r ∈ d.references, r.StandsIn d :=
  fun _ hr => (mem_references_iff.mp hr).1

/-- The references of a declaration are listed in their order, and in no other way. -/
theorem listsReferences_iff {d : Declaration} {rs : List Reference} :
    d.ListsReferences rs ↔ rs = d.references := by
  constructor
  · intro h
    refine eq_of_sorted h.sorted d.sortedFrom_references.sorted fun g => ?_
    rw [h.complete, filter_references]
  · rintro rfl
    exact ⟨d.sortedFrom_references.sorted, d.filter_references⟩

end Declaration

end SourceModel
