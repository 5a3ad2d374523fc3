import SourceModel.Expr.Basic

/-!
Reduction of a sequence of items. Four rules are tried in order, again and again until none
applies; each makes the sequence shorter.
-/

namespace SourceModel.Expr

/-- Whether `depth` open parentheses and those of the items close each other. -/
def isBalancedFrom : Nat → List Expr → Bool
  | depth, [] => depth == 0
  | depth, e :: es =>
    if e.isToken "(" then isBalancedFrom (depth + 1) es
    else if e.isToken ")" then depth != 0 && isBalancedFrom (depth - 1) es
    else isBalancedFrom depth es

def isBalanced (items : List Expr) : Bool :=
  isBalancedFrom 0 items

/-! ## Rules -/

/-- Parentheses around the whole sequence are dropped. -/
def dropParens? : List Expr → Option (List Expr)
  | [] => none
  | first :: rest =>
    match rest.getLast? with
    | some last =>
      if first.isToken "(" && last.isToken ")" && isBalanced rest.dropLast then some rest.dropLast
      else none
    | none => none

/-- A sign before a number goes into the number. -/
def applySign? : List Expr → Option (List Expr)
  | [sign, .literal l] =>
    if sign.isToken "+" && l.isNumeric then some [.literal l]
    else if sign.isToken "-" then l.negate?.map fun n => [.literal n]
    else none
  | _ => none

/-- The word `new` before a constructor call is dropped. -/
def dropNew? : List Expr → Option (List Expr)
  | [word, .creation target args] =>
    if word.isToken "new" then some [.creation target args] else none
  | _ => none

/-- Two strings at the start with a plus between them are joined. -/
def joinStrings? : List Expr → Option (List Expr)
  | .literal (.string a) :: plus :: .literal (.string b) :: rest =>
    if plus.isToken "+" then some (.literal (.string (a ++ b)) :: rest) else none
  | _ => none

/-- What the first rule that applies makes of the sequence. -/
def reduceOnce? (items : List Expr) : Option (List Expr) :=
  dropParens? items <|> applySign? items <|> dropNew? items <|> joinStrings? items

/-! ## Every rule shortens -/

theorem length_lt_of_dropParens? {items next : List Expr} (h : dropParens? items = some next) :
    next.length < items.length := by
  unfold dropParens? at h
  split at h
  · cases h
  · split at h
    · split at h
      · cases h
        simp only [List.length_dropLast, List.length_cons]
        omega
      · cases h
    · cases h

theorem length_lt_of_applySign? {items next : List Expr} (h : applySign? items = some next) :
    next.length < items.length := by
  unfold applySign? at h
  split at h
  · split at h
    · cases h
      simp
    · split at h
      · obtain ⟨n, -, rfl⟩ := Option.map_eq_some_iff.1 h
        simp
      · cases h
  · cases h

theorem length_lt_of_dropNew? {items next : List Expr} (h : dropNew? items = some next) :
    next.length < items.length := by
  unfold dropNew? at h
  split at h
  · split at h
    · cases h
      simp
    · cases h
  · cases h

theorem length_lt_of_joinStrings? {items next : List Expr} (h : joinStrings? items = some next) :
    next.length < items.length := by
  unfold joinStrings? at h
  split at h
  · split at h
    · cases h
      simp only [List.length_cons]
      omega
    · cases h
  · cases h

theorem reduceOnce?_eq_some {items next : List Expr} (h : reduceOnce? items = some next) :
    dropParens? items = some next ∨ applySign? items = some next ∨ dropNew? items = some next ∨
      joinStrings? items = some next := by
  simp only [reduceOnce?, Option.orElse_eq_orElse, Option.orElse_eq_or, Option.or_eq_some_iff] at h
  grind

theorem length_lt_of_reduceOnce? {items next : List Expr} (h : reduceOnce? items = some next) :
    next.length < items.length := by
  rcases reduceOnce?_eq_some h with h | h | h | h
  · exact length_lt_of_dropParens? h
  · exact length_lt_of_applySign? h
  · exact length_lt_of_dropNew? h
  · exact length_lt_of_joinStrings? h

/-! ## Reduction -/

/-- The sequence to which no rule applies any more. -/
def reduce (items : List Expr) : List Expr :=
  match h : reduceOnce? items with
  | some next =>
    have := length_lt_of_reduceOnce? h
    reduce next
  | none => items
termination_by items.length

theorem reduce_of_some {items next : List Expr} (h : reduceOnce? items = some next) :
    reduce items = reduce next := by
  rw [reduce]
  split
  · next n hn =>
    rw [h] at hn
    cases hn
    rfl
  · next hn =>
    rw [h] at hn
    cases hn

theorem reduce_of_none {items : List Expr} (h : reduceOnce? items = none) :
    reduce items = items := by
  rw [reduce]
  split
  · next n hn =>
    rw [h] at hn
    cases hn
  · rfl

/-- A single item is the value itself; any other number of items is a list. -/
def ofItems : List Expr → Expr
  | [e] => e
  | items => .list items

/-- The value of a sequence of items. -/
def ofSequence (items : List Expr) : Expr :=
  ofItems (reduce items)

end SourceModel.Expr
