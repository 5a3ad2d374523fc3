import Mathlib.Data.List.DropRight
import SourceModel.Name

/-!
# Dotted names and their segments

Splitting a name at its dots and joining segments with dots undo each other, as long as no segment
has a dot of its own (`join_segments`, `segments_join`). The last segment is told on the characters
alone (`lastSegment`): what stands behind the last dot, or the whole name if there is none.
-/

namespace SourceModel.Name

variable {name s : String}

/-! ## Segments -/

theorem splitAtDots_of_not_mem {cs : List Char} (h : '.' ∉ cs) : splitAtDots cs = [cs] := by
  induction cs with
  | nil => rfl
  | cons c cs ih =>
    rw [List.mem_cons, not_or] at h
    rw [splitAtDots, if_neg (Ne.symm h.1), ih h.2]

theorem splitAtDots_append {cs : List Char} (h : '.' ∉ cs) (rest : List Char) :
    splitAtDots (cs ++ '.' :: rest) = cs :: splitAtDots rest := by
  induction cs with
  | nil => rfl
  | cons c cs ih =>
    rw [List.mem_cons, not_or] at h
    rw [List.cons_append, splitAtDots, if_neg (Ne.symm h.1), ih h.2]

theorem not_mem_of_mem_splitAtDots {cs x : List Char} (h : x ∈ splitAtDots cs) : '.' ∉ x := by
  induction cs generalizing x with
  | nil =>
    rw [List.mem_singleton.mp h]
    exact List.not_mem_nil
  | cons c cs ih =>
    unfold splitAtDots at h
    by_cases hc : c = '.'
    · rw [if_pos hc] at h
      rcases List.mem_cons.mp h with rfl | h
      · exact List.not_mem_nil
      · exact ih h
    · rw [if_neg hc] at h
      obtain ⟨s, ss, hs⟩ := List.exists_cons_of_ne_nil (splitAtDots_ne_nil cs)
      rw [hs] at h ih
      rcases List.mem_cons.mp h with rfl | h
      · rw [List.mem_cons, not_or]
        exact ⟨Ne.symm hc, ih (.head _)⟩
      · exact ih (.tail _ h)

theorem segments_ne_nil (name : String) : segments name ≠ [] := by
  unfold segments
  rw [Ne, List.map_eq_nil_iff]
  exact splitAtDots_ne_nil _

theorem exists_segments_eq_cons (name : String) : ∃ s rest, segments name = s :: rest :=
  List.exists_cons_of_ne_nil (segments_ne_nil name)

theorem segments_of_not_mem (h : '.' ∉ name.toList) : segments name = [name] := by
  unfold segments
  rw [splitAtDots_of_not_mem h, List.map_singleton, String.ofList_toList]

theorem not_mem_of_mem_segments (h : s ∈ segments name) : '.' ∉ s.toList := by
  obtain ⟨cs, hcs, rfl⟩ := List.mem_map.mp h
  rw [String.toList_ofList]
  exact not_mem_of_mem_splitAtDots hcs

/-- A name that is put together from segments has these segments. -/
theorem segments_join {rest : List String} (h : ∀ x ∈ s :: rest, '.' ∉ x.toList) :
    segments (join (s :: rest)) = s :: rest := by
  induction rest generalizing s with
  | nil => exact segments_of_not_mem (h s (.head _))
  | cons t rest ih =>
    have hrest := ih fun x hx => h x (.tail _ hx)
    unfold segments at hrest ⊢
    have hdot : ".".toList = ['.'] := rfl
    rw [join_cons_cons, String.toList_append, String.toList_append, hdot, List.append_assoc,
      List.singleton_append, splitAtDots_append (h s (.head _)), List.map_cons, hrest,
      String.ofList_toList]

theorem join_eq_intercalate (ss : List String) : join ss = ".".intercalate ss := by
  induction ss with
  | nil => exact String.intercalate_nil.symm
  | cons s ss ih =>
    cases ss with
    | nil => exact String.intercalate_singleton.symm
    | cons t ss => rw [join_cons_cons, ih, String.intercalate_cons_cons]

theorem join_concat {front : List String} (h : front ≠ []) (s : String) :
    join (front ++ [s]) = join front ++ "." ++ s := by
  rw [join_eq_intercalate, join_eq_intercalate,
    String.intercalate_append_of_ne_nil h (List.cons_ne_nil s []), String.intercalate_singleton]

theorem join_segments_concat (q s : String) : join (segments q ++ [s]) = q ++ "." ++ s := by
  rw [join_concat (segments_ne_nil q), join_segments]

/-! ## The last segment -/

/-- What stands behind the last dot, or the whole name if there is none. -/
def lastSegment (name : String) : String :=
  String.ofList (name.toList.rtakeWhile (· != '.'))

/-- A name is a single segment, or a shorter name with one segment more. -/
theorem splitLast_cases (name : String) :
    splitLast name = (none, name) ∧ segments name = [name] ∨
      ∃ q s, splitLast name = (some q, s) ∧ segments name = segments q ++ [s] := by
  obtain ⟨front, s, hname⟩ : ∃ front s, segments name = front ++ [s] :=
    ⟨_, _, (List.dropLast_append_getLast (segments_ne_nil name)).symm⟩
  cases front with
  | nil =>
    have hs : name = s := by
      conv => lhs; rw [← join_segments name, hname]
      rfl
    subst hs
    refine .inl ⟨?_, hname⟩
    unfold splitLast
    rw [hname]
    rfl
  | cons x xs =>
    refine .inr ⟨join (x :: xs), s, ?_, ?_⟩
    · have hdrop : (x :: xs ++ [s]).dropLast = x :: xs := List.dropLast_concat
      have hlast : (x :: xs ++ [s]).getLast? = some s := List.getLast?_concat
      simp only [splitLast, hname, hdrop, hlast, Option.getD_some]
    · rw [segments_join, hname]
      intro y hy
      have hmem : y ∈ segments name := by
        rw [hname]
        exact List.mem_append_left _ hy
      exact not_mem_of_mem_segments hmem

theorem splitLast_qualified {q : String} (hs : '.' ∉ s.toList) :
    splitLast (q ++ "." ++ s) = (some q, s) := by
  have hsegments : segments (q ++ "." ++ s) = segments q ++ [s] := by
    have hdots : ∀ x ∈ segments q ++ [s], '.' ∉ x.toList := by
      intro x hx
      rcases List.mem_append.mp hx with hx | hx
      · exact not_mem_of_mem_segments hx
      · rw [List.mem_singleton.mp hx]
        exact hs
    rw [← join_segments_concat]
    obtain ⟨x, xs, hx⟩ := exists_segments_eq_cons q
    rw [hx] at hdots ⊢
    exact segments_join hdots
  rcases splitLast_cases (q ++ "." ++ s) with ⟨-, hone⟩ | ⟨q', s', hsplit, hother⟩
  · rw [hsegments, List.append_eq_singleton_iff] at hone
    simp [segments_ne_nil] at hone
  · rw [hsegments] at hother
    obtain ⟨hq, hs⟩ := List.append_inj' hother rfl
    rw [hsplit, ← join_segments q', ← hq, join_segments, List.singleton_inj.mp hs]

theorem lastSegment_of_not_mem (h : '.' ∉ name.toList) : lastSegment name = name := by
  have hall : name.toList.rtakeWhile (· != '.') = name.toList := by
    rw [List.rtakeWhile_eq_self_iff]
    intro c hc
    rw [bne_iff_ne]
    rintro rfl
    exact h hc
  rw [lastSegment, hall, String.ofList_toList]

theorem lastSegment_qualified (q : String) (hs : '.' ∉ s.toList) :
    lastSegment (q ++ "." ++ s) = s := by
  have hdot : ".".toList = ['.'] := rfl
  have hback : (q ++ "." ++ s).toList.reverse = s.toList.reverse ++ '.' :: q.toList.reverse := by
    simp [hdot]
  have hall : ∀ c ∈ s.toList.reverse, (c != '.') = true := by
    intro c hc
    rw [bne_iff_ne]
    rintro rfl
    exact hs (List.mem_reverse.mp hc)
  rw [lastSegment, List.rtakeWhile, hback, List.takeWhile_append_of_pos hall,
    List.takeWhile_cons_of_neg (by simp), List.append_nil, List.reverse_reverse,
    String.ofList_toList]

theorem simple_cases (name : String) :
    '.' ∉ name.toList ∧ simple name = name ∨
      ∃ q s, '.' ∉ s.toList ∧ name = q ++ "." ++ s ∧ simple name = s := by
  unfold simple
  rcases splitLast_cases name with ⟨hsplit, hsegments⟩ | ⟨q, s, hsplit, hsegments⟩
  · refine .inl ⟨@not_mem_of_mem_segments name name (by simp [hsegments]), ?_⟩
    rw [hsplit]
  · refine .inr ⟨q, s, @not_mem_of_mem_segments name s (by simp [hsegments]), ?_, by rw [hsplit]⟩
    rw [← join_segments_concat, ← hsegments, join_segments]

theorem simple_eq_lastSegment (name : String) : simple name = lastSegment name := by
  rcases simple_cases name with ⟨hdots, hsimple⟩ | ⟨q, s, hdots, hname, hsimple⟩
  · rw [hsimple, lastSegment_of_not_mem hdots]
  · rw [hsimple, hname, lastSegment_qualified q hdots]

theorem not_mem_lastSegment (name : String) : '.' ∉ (lastSegment name).toList := by
  intro h
  rw [lastSegment, String.toList_ofList] at h
  simpa using List.mem_rtakeWhile_imp h

/-! ## Names that end with a name -/

/-- `full` is the name, with a qualifier and a dot before it or without. -/
def EndsWith (full name : String) : Prop :=
  full = name ∨ ∃ qualifier, full = qualifier ++ "." ++ name

theorem qualify_of_ne_empty {qualifier : String} (h : qualifier ≠ "") (name : String) :
    qualify (some qualifier) name = qualifier ++ "." ++ name := by
  simp [qualify, h]

theorem endsWith_join_concat (front : List String) (s : String) :
    EndsWith (join (front ++ [s])) s := by
  by_cases h : front = []
  · rw [h]
    exact .inl rfl
  · exact .inr ⟨join front, join_concat h s⟩

theorem endsWith_lastSegment (name : String) : EndsWith name (lastSegment name) := by
  rw [← simple_eq_lastSegment]
  rcases simple_cases name with ⟨-, hsimple⟩ | ⟨q, s, -, hname, hsimple⟩
  · exact .inl hsimple.symm
  · exact .inr ⟨q, by rw [hsimple, ← hname]⟩

end SourceModel.Name
