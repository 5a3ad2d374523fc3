import SourceModel.Proofs.Marks
import SourceModel.Proofs.Preorder

/-!
# What is attached to declarations

Modifiers and annotations come before the declaration to which they belong. Each element of a unit
is made by one event, and its marks are the modifiers and annotations that came since the last
event before that one which took such; later events leave it as it is.

1. What came since the last event that took such is told by the events alone (`modifiersFor`,
   `annotationsFor`). It does not wait for two of them (`disjoint_waitingAt`).
2. That is what waits in the draft (`Draft.waiting_after`).
3. An element keeps what it had when it was made (`Draft.attached_of_makes`).
-/

namespace SourceModel

/-! ## What waits at an event -/

/-- The positions before `k` that come after the last event before `k` that takes such. -/
def waitingAt (takes : Event → Bool) (events : List Event) (k : Nat) : List Nat :=
  (List.range k).filter fun j => ((events.take k).drop j).all (!takes ·)

/-- The modifiers that came since the last event before event `k` that takes modifiers. -/
def modifiersFor (events : List Event) (k : Nat) : List Modifier :=
  (waitingAt (·.share.modifiers) events k).filterMap fun j => events[j]?.bind Event.modifier?

/-- The annotations that came since the last event before event `k` that takes annotations. -/
def annotationsFor (events : List Event) (k : Nat) : List WrittenAnnotationUse :=
  (waitingAt (·.share.annotations) events k).filterMap fun j => events[j]?.bind Event.annotation?

section Waiting

variable {takes : Event → Bool} {events : List Event} {event : Event} {k : Nat}

theorem mem_waitingAt_iff {j : Nat} : j ∈ waitingAt takes events k ↔
    j < k ∧ ∀ i event, j ≤ i → i < k → events[i]? = some event → takes event = false := by
  unfold waitingAt
  rw [List.mem_filter, List.mem_range, List.all_eq_true]
  refine and_congr_right fun _ => ⟨fun h i event hji hik hi => ?_, fun h event hmem => ?_⟩
  · have hget : ((events.take k).drop j)[i - j]? = some event := by
      rw [List.getElem?_drop, Nat.add_sub_cancel' hji, List.getElem?_take_of_lt hik]
      exact hi
    simpa using h event (List.mem_of_getElem? hget)
  · obtain ⟨n, hn⟩ := List.getElem?_of_mem hmem
    rw [List.getElem?_drop, List.getElem?_take] at hn
    split at hn
    · next hlt => simpa using h (j + n) event (Nat.le_add_right j n) hlt hn
    · cases hn

theorem waitingAt_succ (h : events[k]? = some event) : waitingAt takes events (k + 1) =
    if takes event then [] else waitingAt takes events k ++ [k] := by
  have htake : events.take (k + 1) = events.take k ++ [event] := by
    rw [List.take_add_one, h]
    rfl
  have hlength : (events.take k).length = k := by
    obtain ⟨hlt, -⟩ := List.getElem?_eq_some_iff.mp h
    rw [List.length_take]
    omega
  -- whether a position goes on waiting is decided by the new event alone
  have hall : ∀ j, j ≤ k → (((events.take (k + 1)).drop j).all fun e => !takes e) =
      ((((events.take k).drop j).all fun e => !takes e) && !takes event) := by
    intro j hj
    rw [htake, List.drop_append_of_le_length (by omega), List.all_append]
    simp
  have hself : ((events.take k).drop k).all (fun e => !takes e) = true := by
    rw [List.drop_eq_nil_of_le (Nat.le_of_eq hlength)]
    rfl
  unfold waitingAt
  cases ht : takes event with
  | true =>
    rw [if_pos rfl, List.filter_eq_nil_iff]
    intro j hj
    rw [hall j (Nat.le_of_lt_succ (List.mem_range.mp hj)), ht]
    simp
  | false =>
    rw [if_neg (by simp), List.range_succ, List.filter_append]
    congr 1
    · refine List.filter_congr fun j hj => ?_
      rw [hall j (Nat.le_of_lt (List.mem_range.mp hj)), ht]
      simp
    · rw [List.filter_singleton, hall k (Nat.le_refl k), hself, ht]
      rfl

/-- What waits goes to one event only. -/
theorem disjoint_waitingAt {i : Nat} (hik : i < k) (hi : events[i]? = some event)
    (ht : takes event) : List.Disjoint (waitingAt takes events i) (waitingAt takes events k) := by
  intro j hji hjk
  have hlt : j < i := (mem_waitingAt_iff.mp hji).1
  have hnot := (mem_waitingAt_iff.mp hjk).2 i event (Nat.le_of_lt hlt) hik hi
  rw [ht] at hnot
  cases hnot

theorem filterMap_waitingAt_succ {α : Type} {f : Event → Option α}
    (hf : ∀ e, takes e → f e = none) (h : events[k]? = some event) :
    (waitingAt takes events (k + 1)).filterMap (fun j => events[j]?.bind f) =
      (if takes event then []
        else (waitingAt takes events k).filterMap fun j => events[j]?.bind f) ++
      (f event).toList := by
  rw [waitingAt_succ h]
  split
  · next ht =>
    rw [hf event ht]
    rfl
  · rw [List.filterMap_append]
    congr 1
    simp only [List.filterMap_cons, h, Option.bind_some, List.filterMap_nil]
    cases f event <;> rfl

theorem modifiersFor_succ (h : events[k]? = some event) : modifiersFor events (k + 1) =
    (if event.share.modifiers then [] else modifiersFor events k) ++ event.modifier?.toList := by
  refine filterMap_waitingAt_succ (fun e he => ?_) h
  cases e <;> first | rfl | cases he

theorem annotationsFor_succ (h : events[k]? = some event) : annotationsFor events (k + 1) =
    (if event.share.annotations then [] else annotationsFor events k) ++
      event.annotation?.toList := by
  refine filterMap_waitingAt_succ (fun e he => ?_) h
  cases e <;> first | rfl | cases he

end Waiting

/-! ## Runs -/

namespace Draft

variable {events : List Event} {event : Event} {last : Draft} {k n id : Nat} {element : Element}
  {marks : Marks}

/-- The draft after the first `n` events. -/
def after (events : List Event) (n : Nat) : Draft :=
  (empty.feedOn (events.take n)).1

theorem feedOn_concat (d : Draft) (events : List Event) (event : Event) :
    (d.feedOn (events ++ [event])).1 = (d.feedOn events).1.next event := by
  induction events generalizing d with
  | nil => exact feedOn_cons d event []
  | cons e events ih =>
    rw [List.cons_append, feedOn_cons, feedOn_cons]
    exact ih (d.next e)

theorem after_succ (h : events[n]? = some event) : after events (n + 1) =
    (after events n).next event := by
  unfold after
  rw [List.take_add_one, h]
  exact feedOn_concat empty (events.take n) event

theorem after_succ_of_none (h : events[n]? = none) : after events (n + 1) = after events n := by
  unfold after
  rw [List.take_add_one, h, Option.toList_none, List.append_nil]

/-- Where all events are accepted, each is accepted after those before it. -/
theorem feed_of_feedAll {d : Draft} (h : d.feedAll events = .ok last)
    (hk : events[k]? = some event) : ∃ e, (d.feedOn (events.take k)).1.feed event = .ok e := by
  induction events generalizing d k with
  | nil => cases hk
  | cons first events ih =>
    obtain ⟨next, hf, hrest⟩ := bind_eq_ok_iff.mp h
    cases k with
    | zero =>
      cases hk
      exact ⟨next, hf⟩
    | succ k =>
      rw [List.take_succ_cons, feedOn_cons, next_of_eq_ok hf]
      exact ih hrest hk

theorem feed_after (h : empty.feedAll events = .ok last) (hk : events[k]? = some event) :
    (after events k).feed event = .ok (after events (k + 1)) := by
  obtain ⟨e, he⟩ : ∃ e, (after events k).feed event = .ok e := feed_of_feedAll h hk
  rw [after_succ hk, next_of_eq_ok he]
  exact he

/-- What waits in the draft is what came since the last event that took such. -/
theorem waiting_after (h : empty.feedAll events = .ok last) (hk : k ≤ events.length) :
    (after events k).modifiers = modifiersFor events k ∧
      (after events k).annotations = annotationsFor events k := by
  induction k with
  | zero => exact ⟨rfl, rfl⟩
  | succ k ih =>
    obtain ⟨hm, ha⟩ := ih (Nat.le_of_succ_le hk)
    have hget : events[k]? = some events[k] := List.getElem?_eq_getElem hk
    obtain ⟨hm', ha'⟩ := waiting_of_eq_ok (feed_after h hget)
    constructor
    · rw [hm', modifiersFor_succ hget, ← hm]
      rfl
    · rw [ha', annotationsFor_succ hget, ← ha]
      rfl

/-- What is attached stays attached. -/
theorem marksAt?_after (h : empty.feedAll events = .ok last) (hkn : k ≤ n)
    (hm : (after events k).unit.marksAt? id element = some marks) :
    (after events n).unit.marksAt? id element = some marks := by
  induction n, hkn using Nat.le_induction with
  | base => exact hm
  | succ n _ ih =>
    cases hget : events[n]? with
    | none =>
      rw [after_succ_of_none hget]
      exact ih
    | some event =>
      obtain ⟨target, hstep⟩ := (declStep_of_eq_ok (feed_after h hget)).settles
      rcases (hstep id element).1 with hsame | ⟨-, hnone, -⟩
      · exact hsame.trans ih
      · rw [ih] at hnone
        cases hnone

/-- Event `k` makes an element: it is there after the event and not before. -/
def Makes (events : List Event) (k id : Nat) (element : Element) : Prop :=
  (after events k).unit.marksAt? id element = none ∧
    ((after events (k + 1)).unit.marksAt? id element).isSome

/-- The element, made by event `k`, is of a sort that the event makes, and it has what waited for
the event. -/
structure Attached (events : List Event) (k id : Nat) (element : Element) (marks : Marks) :
    Prop where
  modifiers : ∃ event, events[k]? = some event ∧ event.makes element ∧
    marks.modifiers = event.modifiersOf (modifiersFor events k)
  annotations : AnnotationUse.ofWrittenList (.type id) (annotationsFor events k) =
    .ok marks.annotations

/-- What waited for an event determines what it attaches. -/
theorem Attached.unique {element' : Element} {marks' : Marks}
    (h : Attached events k id element marks) (h' : Attached events k id element' marks') :
    marks' = marks := by
  obtain ⟨event, hget, -, hm⟩ := h.modifiers
  obtain ⟨event', hget', -, hm'⟩ := h'.modifiers
  have hevent : event' = event := Option.some.inj (hget'.symm.trans hget)
  refine Marks.ext ?_ (Except.ok.inj (h'.annotations.symm.trans h.annotations))
  rw [hm, hm', hevent]

theorem exists_event_of_makes (h : Makes events k id element) :
    ∃ event, events[k]? = some event := by
  cases hget : events[k]? with
  | some event => exact ⟨event, rfl⟩
  | none =>
    obtain ⟨hnone, hsome⟩ := h
    rw [after_succ_of_none hget, hnone] at hsome
    cases hsome

theorem attached_of_makes (h : empty.feedAll events = .ok last) (hm : Makes events k id element) :
    ∃ marks, Attached events k id element marks ∧
      ∀ n, k < n → (after events n).unit.marksAt? id element = some marks := by
  obtain ⟨event, hget⟩ := exists_event_of_makes hm
  obtain ⟨hnone, hsome⟩ := hm
  obtain ⟨target, hstep⟩ := (declStep_of_eq_ok (feed_after h hget)).settles
  have hle : k ≤ events.length := Nat.le_of_lt (List.getElem?_eq_some_iff.mp hget).1
  obtain ⟨hmods, hanns⟩ := waiting_after h hle
  rcases (hstep id element).1 with hsame | ⟨hmakes, -, as, has, hnew⟩
  · rw [hsame, hnone] at hsome
    cases hsome
  · rw [hmods] at hnew
    rw [hanns] at has
    exact ⟨_, ⟨⟨event, hget, hmakes, rfl⟩, has⟩, fun n hn => marksAt?_after h hn hnew⟩

theorem eq_of_makes (h : empty.feedAll events = .ok last) {k' : Nat}
    (hk : Makes events k id element) (hk' : Makes events k' id element) : k' = k := by
  have hnot : ∀ {i j}, Makes events i id element → Makes events j id element → ¬ i < j := by
    intro i j hi hj hij
    obtain ⟨marks, hmarks⟩ := Option.isSome_iff_exists.mp hi.2
    have hlater := marksAt?_after h (Nat.succ_le_of_lt hij) hmarks
    rw [hj.1] at hlater
    cases hlater
  exact Nat.le_antisymm (Nat.le_of_not_lt (hnot hk hk')) (Nat.le_of_not_lt (hnot hk' hk))

/-- What is there in the end was made by some event. -/
theorem exists_makes (hn : ((after events n).unit.marksAt? id element).isSome) :
    ∃ k, Makes events k id element := by
  induction n with
  | zero => cases hn
  | succ n ih =>
    cases hm : (after events n).unit.marksAt? id element with
    | none => exact ⟨n, hm, hn⟩
    | some marks => exact ih (hm ▸ rfl)

/-- All elements that one event makes stand in one declaration. -/
theorem eq_target_of_makes (h : empty.feedAll events = .ok last) {id' : Nat} {element' : Element}
    (hk : Makes events k id element) (hk' : Makes events k id' element') : id' = id := by
  obtain ⟨event, hget⟩ := exists_event_of_makes hk
  obtain ⟨target, hstep⟩ := (declStep_of_eq_ok (feed_after h hget)).settles
  have htarget : ∀ {i el}, Makes events k i el → i = target := by
    intro i el hi
    by_contra hne
    obtain ⟨hnone, hsome⟩ := hi
    rw [(hstep i el).2 hne, hnone] at hsome
    cases hsome
  rw [htarget hk, htarget hk']

end Draft

open Draft in
/-- In a unit that is read from events, every element is made by one event, and it has what waited
for that event, as soon as it is made and for good. Elements made by one event have the same. What
an event takes does not wait for another. -/
theorem SourceUnit.marks_are_what_waited {strict : Bool} {events : List Event} {u : SourceUnit}
    (h : SourceUnit.ofEvents strict events = .ok u) :
    (∀ id element marks, u.marksAt? id element = some marks →
      ∃! k, Makes events k id element) ∧
    (∀ k id element, Makes events k id element → ∃ marks, Attached events k id element marks ∧
      u.marksAt? id element = some marks ∧
      ∀ n, k < n → (after events n).unit.marksAt? id element = some marks) ∧
    (∀ k id element id' element', Makes events k id element → Makes events k id' element' →
      id' = id ∧ u.marksAt? id' element' = u.marksAt? id element) ∧
    ∀ i k event, i < k → events[i]? = some event →
      (event.share.modifiers → List.Disjoint (waitingAt (·.share.modifiers) events i)
        (waitingAt (·.share.modifiers) events k)) ∧
      (event.share.annotations → List.Disjoint (waitingAt (·.share.annotations) events i)
        (waitingAt (·.share.annotations) events k)) := by
  obtain ⟨last, hall, hfinish⟩ := ofEvents_eq_ok_iff.mp h
  have hu : ∀ n, events.length ≤ n → (after events n).unit = u := by
    intro n hn
    unfold after
    rw [List.take_of_length_le hn, feedOn_of_feedAll_eq_ok hall, unit_eq_of_finish_eq_ok hfinish]
  have hmarks : ∀ k id element, Makes events k id element →
      ∃ marks, Attached events k id element marks ∧ u.marksAt? id element = some marks ∧
        ∀ n, k < n → (after events n).unit.marksAt? id element = some marks := by
    intro k id element hk
    obtain ⟨marks, hat, hafter⟩ := attached_of_makes hall hk
    refine ⟨marks, hat, ?_, hafter⟩
    rw [← hu (events.length + k + 1) (by omega)]
    exact hafter _ (by omega)
  refine ⟨fun id element marks hm => ?_, hmarks, fun k id element id' element' hk hk' => ?_,
    fun i k event hik hi => ⟨fun ht => disjoint_waitingAt hik hi ht,
      fun ht => disjoint_waitingAt hik hi ht⟩⟩
  · rw [← hu events.length (Nat.le_refl _)] at hm
    obtain ⟨k, hk⟩ := exists_makes (Option.isSome_iff_exists.mpr ⟨marks, hm⟩)
    exact ⟨k, hk, fun k' hk' => eq_of_makes hall hk hk'⟩
  · have hid := eq_target_of_makes hall hk hk'
    subst hid
    obtain ⟨marks, hat, hm, -⟩ := hmarks _ _ _ hk
    obtain ⟨marks', hat', hm', -⟩ := hmarks _ _ _ hk'
    rw [hm, hm', hat.unique hat']
    exact ⟨rfl, rfl⟩

open Draft in
/-- The type parameter takes the annotation before it and lets the modifier wait for the fields,
the second of which has the same as the first. -/
theorem SourceUnit.marks_of_second_field :
    let events : List Event := [.modifier "public", .enterType .classType "C",
      .modifier "private", .annotate ⟨"A", []⟩, .typeParam "T", .annotate ⟨"B", []⟩,
      .field (.named [⟨"int", []⟩]) [⟨"a", 0, none⟩, ⟨"b", 1, none⟩], .exitType]
    ∃ u, SourceUnit.ofEvents true events = .ok u ∧
      u.marksAt? 0 (.typeParam 0) = some ⟨[], [⟨.type 0, "A", []⟩]⟩ ∧
      u.marksAt? 0 (.field 1) = some ⟨[.privateAccess], [⟨.type 0, "B", []⟩]⟩ ∧
      ∃! k, Makes events k 0 (.field 1) := by
  intro events
  obtain ⟨u, hu, hparam, hfield⟩ : ∃ u, SourceUnit.ofEvents true events = .ok u ∧
      u.marksAt? 0 (.typeParam 0) = some ⟨[], [⟨.type 0, "A", []⟩]⟩ ∧
      u.marksAt? 0 (.field 1) = some ⟨[.privateAccess], [⟨.type 0, "B", []⟩]⟩ :=
    ⟨_, by rfl, by rfl, by rfl⟩
  exact ⟨u, hu, hparam, hfield, (SourceUnit.marks_are_what_waited hu).1 _ _ _ hfield⟩

end SourceModel
