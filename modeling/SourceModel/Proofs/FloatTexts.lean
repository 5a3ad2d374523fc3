import Mathlib.Algebra.Order.Field.Rat
import Mathlib.Data.Nat.Bitwise
import Mathlib.Data.Rat.Cast.Order
import Mathlib.Tactic.FieldSimp
import Mathlib.Tactic.Linarith
import Mathlib.Tactic.Positivity
import SourceModel.Proofs.DecimalTexts

/-!
# Texts of doubles

The text of a double determines the double, in every style of layout.

1. Seventeen digits are enough: the shortest decimal lies in the rounding interval of its double
   (`Binary64.holds_value_shortest`).
2. The rounding intervals of two magnitudes have no number in common (`Binary64.not_holds_of_lt`).
   Neighbouring intervals share an end, but one of the two significands is then odd and its
   interval open.
3. So equal texts, which have equal signs and equal numbers, are texts of one double
   (`FloatStyle.finiteText_inj`).
-/

namespace SourceModel

/-! ## Powers and digits -/

/-- A power is a fraction of two whole powers, of which one is `1`. -/
theorem zpow_eq_div {b : ℚ} (hb : b ≠ 0) (e : ℤ) : b ^ e = b ^ e.toNat / b ^ (-e).toNat := by
  have he : e = (e.toNat : ℤ) - ((-e).toNat : ℤ) := by omega
  conv_lhs => rw [he]
  rw [zpow_sub₀ hb, zpow_natCast, zpow_natCast]

theorem mul_ten_pow_le_iff {a b : ℕ} {e : ℤ} :
    a * 10 ^ e.toNat ≤ b * 10 ^ (-e).toNat ↔ (a : ℚ) * 10 ^ e ≤ b := by
  rw [zpow_eq_div (by norm_num), ← mul_div_assoc, div_le_iff₀ (by positivity)]
  norm_cast

theorem mul_ten_pow_lt_iff {a b : ℕ} {e : ℤ} :
    a * 10 ^ e.toNat < b * 10 ^ (-e).toNat ↔ (a : ℚ) * 10 ^ e < b := by
  rw [zpow_eq_div (by norm_num), ← mul_div_assoc, div_lt_iff₀ (by positivity)]
  norm_cast

theorem digitCount_pos (n : ℕ) : 0 < digitCount n := Nat.length_toDigits_pos

theorem lt_ten_pow_digitCount (n : ℕ) : n < 10 ^ digitCount n :=
  (Nat.length_toDigits_le_iff (by decide) (digitCount_pos n)).mp le_rfl

theorem le_digitCount {n k : ℕ} (h : 10 ^ (k - 1) ≤ n) : k ≤ digitCount n := by
  by_contra hlt
  have hpow : 10 ^ digitCount n ≤ 10 ^ (k - 1) := Nat.pow_le_pow_right (by decide) (by omega)
  have := lt_ten_pow_digitCount n
  omega

theorem ten_pow_digitCount_le {n : ℕ} (hn : 0 < n) : 10 ^ (digitCount n - 1) ≤ n := by
  have hpos := digitCount_pos n
  by_cases h1 : digitCount n = 1
  · rw [h1]
    exact hn
  · by_contra hlt
    have hle : digitCount n ≤ digitCount n - 1 :=
      (Nat.length_toDigits_le_iff (by decide) (by omega)).mpr (not_le.mp hlt)
    omega

namespace Binary64

/-! ## Decimals in an interval -/

namespace Interval

variable {i : Interval} {tie : Tie} {e : ℤ} {d : ℕ}

def lowest (i : Interval) : ℚ := i.low / i.den

def highest (i : Interval) : ℚ := i.high / i.den

/-- The number lies in the interval. -/
def Holds (i : Interval) (r : ℚ) : Prop :=
  if i.closed then i.lowest ≤ r ∧ r ≤ i.highest else i.lowest < r ∧ r < i.highest

theorem Holds.le {r : ℚ} (h : i.Holds r) : i.lowest ≤ r ∧ r ≤ i.highest := by
  unfold Holds at h
  split at h
  · exact h
  · exact ⟨h.1.le, h.2.le⟩

theorem Holds.lt {r : ℚ} (h : i.Holds r) (hopen : i.closed = false) :
    i.lowest < r ∧ r < i.highest := by
  unfold Holds at h
  rwa [if_neg (by simp [hopen])] at h

theorem contains_iff : i.contains d ↔
    if i.closed then i.low ≤ d ∧ d ≤ i.high else i.low < d ∧ d < i.high := by
  unfold contains
  split <;> simp

theorem contains_of_lt (hlow : i.low < d) (hhigh : d < i.high) : i.contains d := by
  rw [contains_iff]
  split
  · exact ⟨hlow.le, hhigh.le⟩
  · exact ⟨hlow, hhigh⟩

/-- The double lies within its interval, which is not too narrow for seventeen digits. -/
structure Wide (i : Interval) : Prop where
  den_pos : 0 < i.den
  low_lt : i.low < i.value
  lt_high : i.value < i.high
  wide : i.value < (i.high - i.low) * 10 ^ 16

theorem holds_of_contains (hden : 0 < i.den)
    (h : (i.onGrid e).1.contains (d * (i.onGrid e).2)) : i.Holds (d * 10 ^ e) := by
  have hden' : (0 : ℚ) < i.den := by exact_mod_cast hden
  have hup : (0 : ℚ) < 10 ^ (-e).toNat := by positivity
  have hgrid : (d : ℚ) * 10 ^ e = d * 10 ^ e.toNat / 10 ^ (-e).toNat := by
    rw [zpow_eq_div (by norm_num), mul_div_assoc]
  have hstep : d * (i.onGrid e).2 = d * 10 ^ e.toNat * i.den := by
    show d * (i.den * 10 ^ e.toNat) = _
    ring
  rw [contains_iff, hstep] at h
  unfold Holds lowest highest
  rw [hgrid, div_le_div_iff₀ hden' hup, div_le_div_iff₀ hup hden', div_lt_div_iff₀ hden' hup,
    div_lt_div_iff₀ hup hden']
  by_cases hc : i.closed
  · have hle := (if_pos hc).mp h
    rw [if_pos hc]
    exact_mod_cast hle
  · have hlt := (if_neg hc).mp h
    rw [if_neg hc]
    exact_mod_cast hlt

/-- A neighbour is in the interval and not below the last multiple of the step. -/
theorem neighbour?_eq_some (hden : 0 < i.den) (h : i.neighbour? tie e = some d) :
    i.Holds (d * 10 ^ e) ∧ (i.onGrid e).1.value / (i.onGrid e).2 ≤ d := by
  have key : (i.onGrid e).1.contains (d * (i.onGrid e).2) ∧
      (i.onGrid e).1.value / (i.onGrid e).2 ≤ d := by
    unfold neighbour? at h
    dsimp only at h
    grind
  exact ⟨holds_of_contains hden key.1, key.2⟩

/-- A grid whose step is shorter than the interval has a neighbour in it. -/
theorem isSome_neighbour? (hi : i.Wide)
    (hstep : i.den * 10 ^ e.toNat < (i.high - i.low) * 10 ^ (-e).toNat) :
    (i.neighbour? tie e).isSome := by
  have hup : 0 < 10 ^ (-e).toNat := Nat.pow_pos (by decide)
  have hl : (i.onGrid e).1.low < (i.onGrid e).1.value := Nat.mul_lt_mul_of_pos_right hi.low_lt hup
  have hh : (i.onGrid e).1.value < (i.onGrid e).1.high :=
    Nat.mul_lt_mul_of_pos_right hi.lt_high hup
  have hs : (i.onGrid e).2 < (i.onGrid e).1.high - (i.onGrid e).1.low := by
    show i.den * 10 ^ e.toNat < i.high * 10 ^ (-e).toNat - i.low * 10 ^ (-e).toNat
    rwa [← Nat.sub_mul]
  have hpos : 0 < (i.onGrid e).2 := Nat.mul_pos hi.den_pos (Nat.pow_pos (by decide))
  -- if the multiple below the double is not in the interval, the one above it is
  have key : (i.onGrid e).1.contains ((i.onGrid e).1.value / (i.onGrid e).2 * (i.onGrid e).2) ∨
      (i.onGrid e).1.contains (((i.onGrid e).1.value / (i.onGrid e).2 + 1) * (i.onGrid e).2) := by
    have hdiv := Nat.div_add_mod' (i.onGrid e).1.value (i.onGrid e).2
    have hmod := Nat.mod_lt (i.onGrid e).1.value hpos
    rw [Nat.succ_mul]
    by_cases hr : (i.onGrid e).1.low < (i.onGrid e).1.value / (i.onGrid e).2 * (i.onGrid e).2
    · exact .inl (contains_of_lt hr (by omega))
    · exact .inr (contains_of_lt (by omega) (by omega))
  unfold neighbour?
  dsimp only
  grind

/-- The point stands directly before the leading digit of the double, or further to the right. -/
theorem ten_zpow_point_le (hi : i.Wide) : (10 : ℚ) ^ (i.point - 1) * i.den ≤ i.value := by
  have hvalue : 0 < i.value := Nat.zero_lt_of_lt hi.low_lt
  unfold point
  split
  · -- at least `1`: the digits of the whole part
    next hle =>
    have hq : 0 < i.value / i.den := Nat.div_pos hle hi.den_pos
    have hcount := digitCount_pos (i.value / i.den)
    have hexp : ((digitCount (i.value / i.den) : ℕ) : ℤ) - 1 =
        ((digitCount (i.value / i.den) - 1 : ℕ) : ℤ) := by omega
    have hmul : 10 ^ (digitCount (i.value / i.den) - 1) * i.den ≤ i.value :=
      (Nat.mul_le_mul_right _ (ten_pow_digitCount_le hq)).trans (Nat.div_mul_le_self _ _)
    rw [hexp, zpow_natCast]
    exact_mod_cast hmul
  · -- below `1`: the digits of the inverse
    have hlt := lt_ten_pow_digitCount ((i.den - 1) / i.value)
    rw [Nat.div_lt_iff_lt_mul hvalue] at hlt
    have hmul : i.den ≤ i.value * 10 ^ digitCount ((i.den - 1) / i.value) := by
      rw [Nat.mul_comm]
      omega
    have hexp : (1 : ℤ) - digitCount ((i.den - 1) / i.value) - 1 =
        -(digitCount ((i.den - 1) / i.value) : ℤ) := by omega
    rw [hexp, zpow_neg, zpow_natCast, inv_mul_le_iff₀ (by positivity), mul_comm]
    exact_mod_cast hmul

/-- On the grid of `n` digits a neighbour has at least `n` digits. -/
theorem ten_pow_le_of_neighbour? (hi : i.Wide) {n : ℕ} (hn : 0 < n)
    (h : i.neighbour? tie (i.point - n) = some d) : 10 ^ (n - 1) ≤ d := by
  refine le_trans ?_ (neighbour?_eq_some hi.den_pos h).2
  have hstep : 0 < (i.onGrid (i.point - n)).2 := Nat.mul_pos hi.den_pos (Nat.pow_pos (by decide))
  rw [Nat.le_div_iff_mul_le hstep]
  show 10 ^ (n - 1) * (i.den * 10 ^ (i.point - n).toNat) ≤ i.value * 10 ^ (-(i.point - n)).toNat
  rw [← Nat.mul_assoc, mul_ten_pow_le_iff]
  have hexp : i.point - 1 = ((n - 1 : ℕ) : ℤ) + (i.point - n) := by omega
  have hle := ten_zpow_point_le hi
  rw [hexp, zpow_add₀ (by norm_num), zpow_natCast] at hle
  push_cast
  linarith

theorem isSome_neighbour?_point (hi : i.Wide) : (i.neighbour? tie (i.point - 17)).isSome := by
  refine isSome_neighbour? hi ?_
  rw [mul_ten_pow_lt_iff]
  have hexp : i.point - 1 = i.point - 17 + (16 : ℕ) := by omega
  have hle := ten_zpow_point_le hi
  rw [hexp, zpow_add₀ (by norm_num), zpow_natCast] at hle
  have hlt : (i.value : ℚ) < ((i.high - i.low : ℕ) : ℚ) * 10 ^ 16 := by exact_mod_cast hi.wide
  have hscaled : (i.den : ℚ) * 10 ^ (i.point - 17) * 10 ^ 16 <
      ((i.high - i.low : ℕ) : ℚ) * 10 ^ 16 := by linarith
  exact lt_of_mul_lt_mul_right hscaled (by positivity)

end Interval

/-! ## Intervals do not meet -/

section

variable (x : Binary64)

/-- How often the distance between neighbours has doubled, up to the double. -/
def doublings : ℕ := x.magnitude / leadingBit - 1

theorem exponent_eq : x.exponent = x.doublings - 1074 := by
  unfold exponent doublings leadingBit
  split <;> omega

theorem magnitude_eq : x.magnitude = x.doublings * leadingBit + x.significand := by
  unfold significand doublings leadingBit
  split <;> omega

theorem significand_lt : x.significand < 2 * leadingBit := by
  unfold significand leadingBit
  split <;> omega

theorem leadingBit_le_significand (h : 0 < x.doublings) : leadingBit ≤ x.significand := by
  unfold doublings at h
  unfold significand leadingBit at *
  split <;> omega

/-- The part of the interval below the double, in quarters of the distance above it. -/
def below : ℕ := if x.significand = leadingBit ∧ -1074 < x.exponent then 1 else 2

theorem below_eq : (x.below = 2 ∧ (x.significand = leadingBit → x.doublings = 0)) ∨
    (x.below = 1 ∧ x.significand = leadingBit) := by
  unfold below
  rw [exponent_eq]
  split
  · next h => exact .inr ⟨rfl, h.1⟩
  · exact .inl ⟨rfl, by omega⟩

/-- A quarter of the least distance between doubles. Every end of an interval is a whole multiple of
it. -/
def grain : ℚ := 2 ^ (-1076 : ℤ)

theorem grain_pos : 0 < grain := zpow_pos (by norm_num) _

theorem end_eq (a : ℕ) :
    ((a * 2 ^ (x.exponent - 2).toNat : ℕ) : ℚ) / ((2 ^ (2 - x.exponent).toNat : ℕ) : ℚ) =
      ((a * 2 ^ x.doublings : ℕ) : ℚ) * grain := by
  have hneg : 2 - x.exponent = -(x.exponent - 2) := by omega
  have hexp : x.exponent - 2 = (x.doublings : ℤ) + -1076 := by
    rw [exponent_eq]
    omega
  have hpow : (2 : ℚ) ^ (x.exponent - 2) = 2 ^ x.doublings * grain := by
    rw [hexp, zpow_add₀ (by norm_num), zpow_natCast, grain]
  rw [hneg]
  push_cast
  rw [mul_div_assoc, ← zpow_eq_div (by norm_num), hpow, mul_assoc]

theorem lowest_interval : x.interval.lowest =
    (((4 * x.significand - x.below) * 2 ^ x.doublings : ℕ) : ℚ) * grain :=
  x.end_eq _

theorem highest_interval : x.interval.highest =
    (((4 * x.significand + 2) * 2 ^ x.doublings : ℕ) : ℚ) * grain :=
  x.end_eq _

theorem closed_interval : x.interval.closed = decide (x.significand % 2 = 0) := rfl

end

section

variable {x y : Binary64}

/-- The interval of a smaller magnitude ends before that of a larger one begins, or just there; one
of the significands is then odd. -/
theorem ends_of_lt (h : x.magnitude < y.magnitude) :
    (4 * x.significand + 2) * 2 ^ x.doublings ≤ (4 * y.significand - y.below) * 2 ^ y.doublings ∧
    ((4 * x.significand + 2) * 2 ^ x.doublings = (4 * y.significand - y.below) * 2 ^ y.doublings →
      x.significand % 2 = 1 ∨ y.significand % 2 = 1) := by
  have hx := x.magnitude_eq
  have hy := y.magnitude_eq
  have hxlt := x.significand_lt
  have hylt := y.significand_lt
  have hxle := x.leadingBit_le_significand
  have hyle := y.leadingBit_le_significand
  have hbelow := y.below_eq
  unfold leadingBit at hbelow hx hy hxlt hylt hxle hyle
  by_cases hd : x.doublings = y.doublings
  · -- the same distance between neighbours
    rw [hd] at hx ⊢
    have hm : 4 * x.significand + 2 ≤ 4 * y.significand - y.below := by omega
    refine ⟨Nat.mul_le_mul_right _ hm, fun heq => ?_⟩
    have := Nat.eq_of_mul_eq_mul_right (Nat.pow_pos (by decide)) heq
    omega
  · -- a larger distance: the intervals can meet below a power of two only
    have hlt : x.doublings < y.doublings := by omega
    have hlow : 4 * 0x10000000000000 - 1 ≤ 4 * y.significand - y.below := by omega
    have hpow : 2 * 2 ^ x.doublings ≤ 2 ^ y.doublings := by
      rw [← Nat.pow_succ']
      exact Nat.pow_le_pow_right (by decide) hlt
    have hmul : (4 * 0x10000000000000 - 1) * (2 * 2 ^ x.doublings) ≤
        (4 * y.significand - y.below) * 2 ^ y.doublings := Nat.mul_le_mul hlow hpow
    have hmul' : (4 * x.significand + 2) * 2 ^ x.doublings ≤
        (4 * 0x10000000000000 - 1) * (2 * 2 ^ x.doublings) := by
      rw [← Nat.mul_assoc]
      exact Nat.mul_le_mul_right _ (by omega)
    refine ⟨hmul'.trans hmul, fun heq => .inl ?_⟩
    have heq' := le_antisymm hmul' (heq ▸ hmul)
    rw [← Nat.mul_assoc] at heq'
    have := Nat.eq_of_mul_eq_mul_right (Nat.pow_pos (by decide)) heq'
    omega

theorem not_holds_of_lt {r : ℚ} (h : x.magnitude < y.magnitude) (hx : x.interval.Holds r) :
    ¬y.interval.Holds r := by
  intro hy
  obtain ⟨hle, hodd⟩ := ends_of_lt h
  have hends : x.interval.highest ≤ y.interval.lowest := by
    rw [highest_interval, lowest_interval]
    exact mul_le_mul_of_nonneg_right (by exact_mod_cast hle) grain_pos.le
  have hmeet : x.interval.highest = y.interval.lowest :=
    le_antisymm hends (hy.le.1.trans hx.le.2)
  have heq : (4 * x.significand + 2) * 2 ^ x.doublings =
      (4 * y.significand - y.below) * 2 ^ y.doublings := by
    rw [highest_interval, lowest_interval] at hmeet
    exact_mod_cast mul_right_cancel₀ grain_pos.ne' hmeet
  rcases hodd heq with hm | hm
  · have hopen := (hx.lt (by simp [closed_interval, hm])).2
    linarith [hy.le.1]
  · have hopen := (hy.lt (by simp [closed_interval, hm])).1
    linarith [hx.le.2]

/-! ## The shortest decimal -/

theorem significand_pos (hx : x.magnitude ≠ 0) : 0 < x.significand := by
  have := x.magnitude_eq
  have := x.leadingBit_le_significand
  unfold leadingBit at *
  omega

theorem wide_interval (hx : x.magnitude ≠ 0) : x.interval.Wide := by
  have hm := significand_pos hx
  have hlt := x.significand_lt
  have hbelow := x.below_eq
  unfold leadingBit at hlt hbelow
  have hscale : 0 < 2 ^ (x.exponent - 2).toNat := Nat.pow_pos (by decide)
  have hlow : x.interval.low = (4 * x.significand - x.below) * 2 ^ (x.exponent - 2).toNat := rfl
  have hvalue : x.interval.value = 4 * x.significand * 2 ^ (x.exponent - 2).toNat := rfl
  have hhigh : x.interval.high = (4 * x.significand + 2) * 2 ^ (x.exponent - 2).toNat := rfl
  refine ⟨Nat.pow_pos (by decide), ?_, ?_, ?_⟩
  · rw [hlow, hvalue]
    exact Nat.mul_lt_mul_of_pos_right (by omega) hscale
  · rw [hvalue, hhigh]
    exact Nat.mul_lt_mul_of_pos_right (by omega) hscale
  · rw [hlow, hvalue, hhigh, ← Nat.sub_mul, Nat.mul_right_comm _ _ (10 ^ 16)]
    exact Nat.mul_lt_mul_of_pos_right (by omega) hscale

theorem exists_toDigits_eq (d : ℕ) :
    ∃ k, Nat.toDigits 10 d = significantDigits d ++ List.replicate k '0' := by
  have hsplit := List.takeWhile_append_dropWhile (p := (· == '0')) (l := (Nat.toDigits 10 d).reverse)
  have hzeros : ∀ c ∈ ((Nat.toDigits 10 d).reverse.takeWhile (· == '0')).reverse, c = '0' := by
    intro c hc
    exact beq_iff_eq.mp (List.all_eq_true.mp List.all_takeWhile c (List.mem_reverse.mp hc))
  refine ⟨((Nat.toDigits 10 d).reverse.takeWhile (· == '0')).reverse.length, ?_⟩
  rw [← List.eq_replicate_of_mem hzeros, significantDigits, ← List.reverse_append, hsplit,
    List.reverse_reverse]

/-- The zeros that are dropped make up for the digits that are missing. -/
theorem exists_eq_ten_pow_mul (d : ℕ) : ∃ k, digitCount d = (significantDigits d).length + k ∧
    d = 10 ^ k * Nat.ofDigitChars 10 (significantDigits d) 0 := by
  obtain ⟨k, hk⟩ := exists_toDigits_eq d
  refine ⟨k, ?_, ?_⟩
  · rw [digitCount, hk, List.length_append, List.length_replicate]
  · rw [← Decimal.ofDigitChars_append_zeros, ← hk, Nat.ofDigitChars_ten_toDigits]

theorem value_significantDigits {d n : ℕ} (point : ℤ) (hn : n ≤ digitCount d) :
    Decimal.value ⟨significantDigits d, point + (digitCount d - n : ℕ)⟩ = d * 10 ^ (point - n) := by
  obtain ⟨k, hcount, hd⟩ := exists_eq_ten_pow_mul d
  have hexp : point + (digitCount d - n : ℕ) - (significantDigits d).length =
      (k : ℤ) + (point - n) := by omega
  unfold Decimal.value
  rw [hexp, zpow_add₀ (by norm_num), zpow_natCast]
  conv_rhs => rw [hd]
  push_cast
  ring

theorem printable_significantDigits {d : ℕ} (hd : 0 < d) (point : ℤ) :
    Decimal.Printable ⟨significantDigits d, point⟩ where
  nonempty := by
    obtain ⟨k, -, heq⟩ := exists_eq_ten_pow_mul d
    show significantDigits d ≠ []
    intro hnil
    rw [hnil, Nat.ofDigitChars_nil, Nat.mul_zero] at heq
    omega
  isDigit := by
    obtain ⟨k, hk⟩ := exists_toDigits_eq d
    intro c hc
    refine Decimal.isDigit_of_mem_toDigits (n := d) c ?_
    rw [hk]
    exact List.mem_append_left _ hc

/-- The search for a neighbour does not fail. -/
theorem exists_shortest_eq (tie : Tie) (hx : x.magnitude ≠ 0) :
    ∃ n d : ℕ, 0 < n ∧ x.interval.neighbour? tie (x.interval.point - n) = some d ∧
      x.shortest tie =
        ⟨significantDigits d, x.interval.point + (digitCount d - n : ℕ)⟩ := by
  have hhit : ((List.range' 1 17).findSome? fun (n : ℕ) =>
      (x.interval.neighbour? tie (x.interval.point - n)).map fun d => (n, d)).isSome := by
    rw [List.findSome?_isSome_iff]
    refine ⟨17, by decide, ?_⟩
    rw [Option.isSome_map]
    exact Interval.isSome_neighbour?_point (wide_interval hx)
  obtain ⟨⟨n, d⟩, hnd⟩ := Option.isSome_iff_exists.mp hhit
  obtain ⟨m, hm, hmap⟩ := List.exists_of_findSome?_eq_some hnd
  obtain ⟨d', hd', heq⟩ := Option.map_eq_some_iff.mp hmap
  cases heq
  refine ⟨n, d, ?_, hd', ?_⟩
  · rw [List.mem_range'_1] at hm
    omega
  · unfold shortest
    rw [if_neg hx]
    dsimp only
    rw [hnd]

theorem holds_value_shortest (tie : Tie) (hx : x.magnitude ≠ 0) :
    x.interval.Holds (x.shortest tie).value ∧ (x.shortest tie).Printable := by
  have hi := wide_interval hx
  obtain ⟨n, d, hn, hd, heq⟩ := exists_shortest_eq tie hx
  have hpow : 10 ^ (n - 1) ≤ d := Interval.ten_pow_le_of_neighbour? hi hn hd
  have hpos : 0 < d := lt_of_lt_of_le (Nat.pow_pos (by decide)) hpow
  rw [heq]
  refine ⟨?_, printable_significantDigits hpos _⟩
  rw [value_significantDigits _ (le_digitCount hpow)]
  exact (Interval.neighbour?_eq_some hi.den_pos hd).1

theorem shortest_of_magnitude_eq_zero (tie : Tie) (hx : x.magnitude = 0) :
    x.shortest tie = .zero := if_pos hx

theorem printable_shortest (tie : Tie) : (x.shortest tie).Printable := by
  by_cases hx : x.magnitude = 0
  · rw [shortest_of_magnitude_eq_zero tie hx]
    exact Decimal.printable_zero
  · exact (holds_value_shortest tie hx).2

theorem value_shortest_eq_zero_iff (tie : Tie) :
    (x.shortest tie).value = 0 ↔ x.magnitude = 0 := by
  constructor
  · intro hvalue
    by_contra hx
    have hm := significand_pos hx
    have hbelow := x.below_eq
    have hpos : 0 < (4 * x.significand - x.below) * 2 ^ x.doublings :=
      Nat.mul_pos (by omega) (Nat.pow_pos (by decide))
    have hlowest : 0 < x.interval.lowest := by
      rw [lowest_interval]
      exact mul_pos (by exact_mod_cast hpos) grain_pos
    have hle := (holds_value_shortest tie hx).1.le.1
    linarith
  · intro hx
    rw [shortest_of_magnitude_eq_zero tie hx]
    simp [Decimal.value, Decimal.zero, Nat.ofDigitChars_cons]

theorem magnitude_eq_of_value_eq {tie : Tie}
    (h : (x.shortest tie).value = (y.shortest tie).value) : x.magnitude = y.magnitude := by
  by_cases hx : x.magnitude = 0
  · have hy : y.magnitude = 0 := by
      rw [← value_shortest_eq_zero_iff tie, ← h, value_shortest_eq_zero_iff]
      exact hx
    rw [hx, hy]
  · have hy : y.magnitude ≠ 0 := by
      rw [Ne, ← value_shortest_eq_zero_iff tie, ← h, value_shortest_eq_zero_iff]
      exact hx
    have hhx := (holds_value_shortest tie hx).1
    have hhy := (holds_value_shortest tie hy).1
    rcases lt_trichotomy x.magnitude y.magnitude with hlt | heq | hlt
    · exact absurd hhy (not_holds_of_lt hlt (h ▸ hhx))
    · exact heq
    · exact absurd hhx (not_holds_of_lt hlt (h ▸ hhy))

/-! ## Signs -/

theorem isNegative_iff : x.isNegative ↔ 2 ^ 63 ≤ x.bits.toNat := by
  have hlt := x.bits.toNat_lt
  have hmask : (x.bits &&& signMask).toNat = (x.bits.toNat.testBit 63).toNat * 2 ^ 63 := by
    rw [UInt64.toNat_and]
    exact Nat.and_two_pow _ 63
  have hzero : x.bits &&& signMask = 0 ↔ x.bits.toNat / 2 ^ 63 % 2 ≠ 1 := by
    rw [← UInt64.toNat_inj, hmask, Nat.testBit_eq_decide_div_mod_eq]
    simp
  unfold isNegative
  rw [bne_iff_ne, Ne, hzero]
  omega

theorem eq_of_magnitude_eq (h : x.magnitude = y.magnitude) (hs : x.isNegative = y.isNegative) :
    x = y := by
  have hiff : 2 ^ 63 ≤ x.bits.toNat ↔ 2 ^ 63 ≤ y.bits.toNat := by
    rw [← isNegative_iff, hs, isNegative_iff]
  have hbits : x.bits.toNat = y.bits.toNat := by
    have hx := x.bits.toNat_lt
    have hy := y.bits.toNat_lt
    unfold magnitude at h
    omega
  exact congrArg Binary64.mk (UInt64.toNat_inj.mp hbits)

end

end Binary64

/-! ## Texts -/

namespace FloatStyle

/-- What is written after the sign. -/
def body (style : FloatStyle) (x : Binary64) : List Char :=
  let d := x.shortest style.tie
  if x.magnitude = 0 ∨ (style.plainFrom < d.point ∧ d.point ≤ style.plainBelow) then d.plain
  else d.scientific style.signedExponent

variable {style : FloatStyle} {x y : Binary64}

theorem toList_finiteText :
    (style.finiteText x).toList = (if x.isNegative then ['-'] else []) ++ style.body x :=
  String.toList_ofList

theorem head?_body_ne : (style.body x).head? ≠ some '-' := by
  have hd := Binary64.printable_shortest (x := x) style.tie
  unfold body
  dsimp only
  split
  · exact Decimal.head?_plain_ne hd
  · exact Decimal.head?_scientific_ne hd

theorem value_eq_of_body_eq (h : style.body x = style.body y) :
    (x.shortest style.tie).value = (y.shortest style.tie).value := by
  have hx := Binary64.printable_shortest (x := x) style.tie
  have hy := Binary64.printable_shortest (x := y) style.tie
  unfold body at h
  dsimp only at h
  split at h <;> split at h
  · exact Decimal.value_eq_of_plain_eq hx hy h
  · exact absurd h (Decimal.plain_ne_scientific hx hy)
  · exact absurd h.symm (Decimal.plain_ne_scientific hy hx)
  · rw [Decimal.eq_of_scientific_eq hx hy h]

/-- The text of a double tells which double it is. -/
theorem finiteText_inj (h : style.finiteText x = style.finiteText y) : x = y := by
  have hlist : (if x.isNegative then ['-'] else []) ++ style.body x =
      (if y.isNegative then ['-'] else []) ++ style.body y := by
    rw [← toList_finiteText, h, toList_finiteText]
  have hsign : x.isNegative = y.isNegative ∧ style.body x = style.body y := by
    cases hx : x.isNegative <;> cases hy : y.isNegative <;> rw [hx, hy] at hlist
    · exact ⟨rfl, hlist⟩
    · exact absurd (congrArg List.head? hlist) head?_body_ne
    · exact absurd (congrArg List.head? hlist).symm head?_body_ne
    · exact ⟨rfl, List.append_cancel_left hlist⟩
  have hvalue := value_eq_of_body_eq hsign.2
  exact Binary64.eq_of_magnitude_eq (Binary64.magnitude_eq_of_value_eq hvalue) hsign.1

end FloatStyle

end SourceModel
