/-!
Double-precision numbers by their bit patterns, and the one nearest to a decimal.
-/

namespace SourceModel

/-- A double-precision binary number. -/
structure Binary64 where
  bits : UInt64
deriving DecidableEq, Repr, Inhabited

namespace Binary64

def signMask : UInt64 := 0x8000000000000000

/-- The weight of the leading bit of a normal significand, `2 ^ 52`. -/
def leadingBit : Nat := 0x10000000000000

/-- The bits of infinity; every smaller pattern is a finite number, in increasing order. -/
def infinityBits : Nat := 0x7ff0000000000000

def negate (x : Binary64) : Binary64 :=
  ⟨x.bits ^^^ signMask⟩

def isNegative (x : Binary64) : Bool :=
  x.bits &&& signMask != 0

/-- The bits without the sign. -/
def magnitude (x : Binary64) : Nat :=
  x.bits.toNat % 0x8000000000000000

def isFinite (x : Binary64) : Bool :=
  x.magnitude < infinityBits

/-- Equality of numbers: the two zeros are equal. -/
def sameNumber (x y : Binary64) : Bool :=
  x == y || (x.magnitude == 0 && y.magnitude == 0)

/-- The significand `m` of a finite number `m * 2 ^ q`. -/
def significand (x : Binary64) : Nat :=
  if x.magnitude < leadingBit then x.magnitude else leadingBit + x.magnitude % leadingBit

/-- The exponent `q` of a finite number `m * 2 ^ q`. -/
def exponent (x : Binary64) : Int :=
  if x.magnitude < leadingBit then -1074 else x.magnitude / leadingBit - 1075

/-- The quotient rounded to the nearest whole number, a half going to the even one. -/
def roundHalfEven (num den : Nat) : Nat :=
  let q := num / den
  let r := num % den
  if den < 2 * r ∨ (den = 2 * r ∧ q % 2 = 1) then q + 1 else q

/-- The `k` with `2 ^ k ≤ num / den < 2 ^ (k + 1)`, for positive numbers. -/
def floorLog2 (num den : Nat) : Int :=
  let k : Int := num.log2 - den.log2
  if den * Nat.pow 2 k.toNat ≤ num * Nat.pow 2 (-k).toNat then k else k - 1

/-- The positive quotient `num / den` rounded to a double. -/
def ofRatio (num den : Nat) : Binary64 :=
  let q := max (floorLog2 num den - 52) (-1074)
  let m := roundHalfEven (num * Nat.pow 2 (-q).toNat) (den * Nat.pow 2 q.toNat)
  -- One formula for subnormal and normal numbers; a significand rounded up to 2 ^ 53 carries.
  ⟨UInt64.ofNat (min ((q + 1074).toNat * leadingBit + m) infinityBits)⟩

/-- The double nearest to `m * 10 ^ e`. Exponents beyond the range of doubles are cut short before
a power of ten is formed. -/
def ofDecimal (m : Nat) (e : Int) : Binary64 :=
  if m = 0 then ⟨0⟩
  else if 400 < e then ⟨UInt64.ofNat infinityBits⟩
  else if m.log2 + e < -400 then ⟨0⟩
  else ofRatio (m * Nat.pow 10 e.toNat) (Nat.pow 10 (-e).toNat)

end Binary64

end SourceModel
