/-!
Sets of code points as lists of ranges.
-/

namespace SourceModel.Text

/-- The code points from the first component to the second, both included. -/
abbrev Range := Nat × Nat

def inRanges (ranges : List Range) (n : Nat) : Bool :=
  ranges.any fun r => r.1 ≤ n && n ≤ r.2

theorem inRanges_iff {ranges : List Range} {n : Nat} :
    inRanges ranges n = true ↔ ∃ r ∈ ranges, r.1 ≤ n ∧ n ≤ r.2 := by
  simp [inRanges]

end SourceModel.Text
