import SourceModel.Text.Case

/-!
Dotted names. A name is any text; its segments are what stands between the dots, and an empty name
is one empty segment.
-/

namespace SourceModel.Name

/-! ## Segments -/

def splitAtDots : List Char → List (List Char)
  | [] => [[]]
  | c :: cs =>
    if c = '.' then [] :: splitAtDots cs
    else
      match splitAtDots cs with
      | [] => [[c]]
      | s :: ss => (c :: s) :: ss

def segments (name : String) : List String :=
  (splitAtDots name.toList).map String.ofList

/-- The segments with dots between them. -/
def join : List String → String
  | [] => ""
  | [s] => s
  | s :: ss => s ++ "." ++ join ss

theorem splitAtDots_ne_nil (cs : List Char) : splitAtDots cs ≠ [] := by
  unfold splitAtDots
  split
  · simp
  · split
    · simp
    · split <;> simp

theorem join_cons_cons (s t : String) (ss : List String) :
    join (s :: t :: ss) = s ++ "." ++ join (t :: ss) := rfl

theorem join_splitAtDots (cs : List Char) :
    join ((splitAtDots cs).map String.ofList) = String.ofList cs := by
  induction cs with
  | nil => rfl
  | cons c cs ih =>
    unfold splitAtDots
    split
    · next h =>
      obtain ⟨s, ss, hs⟩ := List.exists_cons_of_ne_nil (splitAtDots_ne_nil cs)
      rw [hs] at ih ⊢
      simp only [List.map_cons] at ih ⊢
      rw [join_cons_cons, ih, h]
      simp [String.ofList_cons]
    · obtain ⟨s, ss, hs⟩ := List.exists_cons_of_ne_nil (splitAtDots_ne_nil cs)
      rw [hs] at ih ⊢
      cases ss with
      | nil =>
        simp only [List.map_cons, List.map_nil, join] at ih ⊢
        simp [String.ofList_cons, ih]
      | cons t ss =>
        simp only [List.map_cons] at ih ⊢
        rw [join_cons_cons] at ih ⊢
        simp only [String.ofList_cons, ← ih, String.append_assoc]

/-- Nothing is lost by splitting. -/
theorem join_segments (name : String) : join (segments name) = name := by
  rw [segments, join_splitAtDots, String.ofList_toList]

/-- What stands before the last dot, if there is one, and what stands after it. -/
def splitLast (name : String) : Option String × String :=
  let ss := segments name
  let last := ss.getLast?.getD ""
  match ss.dropLast with
  | [] => (none, last)
  | front => (some (join front), last)

/-- The last segment. -/
def simple (name : String) : String :=
  (splitLast name).2

/-- The name inside a qualifier; an empty qualifier adds nothing. -/
def qualify (qualifier : Option String) (name : String) : String :=
  match qualifier with
  | some q => if q.isEmpty then name else q ++ "." ++ name
  | none => name

/-! ## Case -/

/-- The name with its first character in upper case. -/
def capitalize (name : String) : String :=
  match name.toList with
  | [] => ""
  | c :: cs => String.ofList (Text.upper c ++ cs)

/-- The name with its first character in lower case, unless the first two are both upper case, as
in an acronym. -/
def decapitalize (name : String) : String :=
  match name.toList with
  | [] => ""
  | [c] => String.ofList (Text.lower c)
  | c :: d :: cs =>
    if Text.isUpper c && Text.isUpper d then name else String.ofList (Text.lower c ++ d :: cs)

end SourceModel.Name
