/-!
Digits of numbers in a radix up to sixteen.
-/

namespace SourceModel.Literal

def digitValue? (c : Char) : Option Nat :=
  if '0' ≤ c ∧ c ≤ '9' then some (c.toNat - '0'.toNat)
  else if 'a' ≤ c ∧ c ≤ 'f' then some (c.toNat - 'a'.toNat + 10)
  else if 'A' ≤ c ∧ c ≤ 'F' then some (c.toNat - 'A'.toNat + 10)
  else none

def isDigitOf (radix : Nat) (c : Char) : Bool :=
  match digitValue? c with
  | some d => d < radix
  | none => false

/-- The number whose digits follow those of `acc`. -/
def numberFrom? (radix : Nat) : Nat → List Char → Option Nat
  | acc, [] => some acc
  | acc, c :: cs =>
    match digitValue? c with
    | some d => if d < radix then numberFrom? radix (acc * radix + d) cs else none
    | none => none

/-- The number written by `cs` in the radix; `none` if a character is no digit of it. -/
def number? (radix : Nat) (cs : List Char) : Option Nat :=
  numberFrom? radix 0 cs

end SourceModel.Literal
