import SourceModel.Number.Binary64

/-!
The shortest decimal that reads back as a given double.

Every real number in an interval around a double rounds to it. On each grid of decimals, from one
digit upwards, the double has two neighbours; the first grid with a neighbour in the interval
gives the digits, the nearer neighbour if both are.
-/

namespace SourceModel

/-- Which of two equally near neighbours is taken. -/
inductive Tie where
  | up
  | even
deriving DecidableEq, Repr

/-- The number `0.d₁d₂… * 10 ^ point` with decimal digits `d₁d₂…`. -/
structure Decimal where
  digits : List Char
  point : Int
deriving DecidableEq, Repr

def Decimal.zero : Decimal := ⟨['0'], 1⟩

/-- The number of digits of `n`; zero has one. -/
def digitCount (n : Nat) : Nat :=
  (Nat.toDigits 10 n).length

namespace Binary64

/-- A finite positive double `value / den` and the ends of its rounding interval. -/
structure Interval where
  low : Nat
  value : Nat
  high : Nat
  den : Nat
  closed : Bool

/-- The interval of the reals that round to `x`. Below a power of two the gap to the next double
is half as wide; the ends belong to the interval if the significand is even. -/
def interval (x : Binary64) : Interval :=
  let m := x.significand
  let below := if m = leadingBit ∧ -1074 < x.exponent then 1 else 2
  let scale := Nat.pow 2 (x.exponent - 2).toNat
  { low := (4 * m - below) * scale
    value := 4 * m * scale
    high := (4 * m + 2) * scale
    den := Nat.pow 2 (2 - x.exponent).toNat
    closed := m % 2 = 0 }

namespace Interval

/-- Whether `num / den` lies in the interval, on the same denominator. -/
def contains (i : Interval) (num : Nat) : Bool :=
  if i.closed then i.low ≤ num ∧ num ≤ i.high else i.low < num ∧ num < i.high

/-- The `k` with `10 ^ (k - 1) ≤ value / den < 10 ^ k`. -/
def point (i : Interval) : Int :=
  if i.den ≤ i.value then digitCount (i.value / i.den) else 1 - digitCount ((i.den - 1) / i.value)

/-- The interval on the denominator that makes the decimals of step `10 ^ e` whole multiples of
the second component. -/
def onGrid (i : Interval) (e : Int) : Interval × Nat :=
  let up := Nat.pow 10 (-e).toNat
  ({ i with low := i.low * up, value := i.value * up, high := i.high * up },
    i.den * Nat.pow 10 e.toNat)

/-- The neighbour on the grid of step `10 ^ e` that lies in the interval, in units of the step. -/
def neighbour? (i : Interval) (tie : Tie) (e : Int) : Option Nat :=
  let (j, step) := i.onGrid e
  let floor := j.value / step
  let rest := j.value % step
  match j.contains (floor * step), j.contains ((floor + 1) * step) with
  | true, true =>
    if 2 * rest < step then some floor
    else if step < 2 * rest then some (floor + 1)
    else match tie with
      | .up => some (floor + 1)
      | .even => some (if floor % 2 = 0 then floor else floor + 1)
  | true, false => some floor
  | false, true => some (floor + 1)
  | false, false => none

end Interval

/-- The digits of `n` without the zeros at their end. -/
def significantDigits (n : Nat) : List Char :=
  ((Nat.toDigits 10 n).reverse.dropWhile (· == '0')).reverse

/-- The shortest decimal that reads back as the magnitude of a finite `x`. -/
def shortest (tie : Tie) (x : Binary64) : Decimal :=
  if x.magnitude = 0 then .zero
  else
    let i := x.interval
    let point := i.point
    let hit? := (List.range' 1 17).findSome? fun (n : Nat) =>
      (i.neighbour? tie (point - n)).map fun d => (n, d)
    match hit? with
    -- A neighbour above may have one digit more than its grid.
    | some (n, d) => ⟨significantDigits d, point + (digitCount d - n : Nat)⟩
    | none => .zero

end Binary64

end SourceModel
