import Mathlib.Algebra.Order.Field.Rat
import Mathlib.Tactic.FieldSimp
import Mathlib.Tactic.Ring
import SourceModel.Number.Text

/-!
# Decimals and their layouts

A decimal stands for a rational number (`Decimal.value`). Both layouts write that number down: the
positional one tells the number (`Decimal.value_eq_of_plain_eq`), the one with an exponent even the
decimal (`Decimal.eq_of_scientific_eq`), and no text is written in both
(`Decimal.plain_ne_scientific`).
-/

namespace SourceModel

namespace Decimal

/-- The number that a decimal stands for. -/
def value (d : Decimal) : ℚ :=
  Nat.ofDigitChars 10 d.digits 0 * 10 ^ (d.point - d.digits.length)

/-- A decimal as it is printed: some digits, and nothing but digits. -/
structure Printable (d : Decimal) : Prop where
  nonempty : d.digits ≠ []
  isDigit : ∀ c ∈ d.digits, c.isDigit

theorem printable_zero : Decimal.zero.Printable where
  nonempty := List.cons_ne_nil _ _
  isDigit := by
    intro c hc
    rw [List.mem_singleton.mp hc]
    decide

theorem not_mem_of_isDigit {l : List Char} {c : Char} (hl : ∀ x ∈ l, x.isDigit)
    (hc : c.isDigit = false) : c ∉ l := by
  intro hmem
  rw [hl c hmem] at hc
  cases hc

theorem ofDigitChars_zeros_append (n : ℕ) (ds : List Char) :
    Nat.ofDigitChars 10 (List.replicate n '0' ++ ds) 0 = Nat.ofDigitChars 10 ds 0 := by
  rw [Nat.ofDigitChars_append, Nat.ofDigitChars_replicate_zero, Nat.mul_zero]

theorem ofDigitChars_append_zeros (ds : List Char) (n : ℕ) :
    Nat.ofDigitChars 10 (ds ++ List.replicate n '0') 0 = 10 ^ n * Nat.ofDigitChars 10 ds 0 := by
  rw [Nat.ofDigitChars_append, Nat.ofDigitChars_replicate_zero]

/-! ### Positional layout -/

/-- The digits before the point. -/
def whole (d : Decimal) : List Char :=
  if d.point ≤ 0 then ['0']
  else d.digits.take d.point.toNat ++ List.replicate (d.point.toNat - d.digits.length) '0'

/-- The digits after the point. -/
def fraction (d : Decimal) : List Char :=
  let digits := List.replicate (-d.point).toNat '0' ++ d.digits.drop d.point.toNat
  if digits.isEmpty then ['0'] else digits

section Plain

variable {d e : Decimal}

theorem plain_eq (d : Decimal) : d.plain = d.whole ++ '.' :: d.fraction := rfl

theorem eq_zero_or_mem_of_mem_parts {c : Char} (h : c ∈ d.whole ++ d.fraction) :
    c = '0' ∨ c ∈ d.digits := by
  rcases List.mem_append.mp h with h | h
  · unfold whole at h
    split at h
    · exact .inl (List.mem_singleton.mp h)
    · rcases List.mem_append.mp h with h | h
      · exact .inr (List.mem_of_mem_take h)
      · exact .inl (List.eq_of_mem_replicate h)
  · unfold fraction at h
    dsimp only at h
    split at h
    · exact .inl (List.mem_singleton.mp h)
    · rcases List.mem_append.mp h with h | h
      · exact .inl (List.eq_of_mem_replicate h)
      · exact .inr (List.mem_of_mem_drop h)

theorem isDigit_of_mem_parts (hd : d.Printable) : ∀ c ∈ d.whole ++ d.fraction, c.isDigit := by
  intro c hc
  rcases eq_zero_or_mem_of_mem_parts hc with rfl | hc
  · decide
  · exact hd.isDigit c hc

theorem not_mem_plain (hd : d.Printable) {c : Char} (hc : c.isDigit = false) (hpoint : c ≠ '.') :
    c ∉ d.plain := by
  have hparts := not_mem_of_isDigit (isDigit_of_mem_parts hd) hc
  rw [plain_eq]
  simp_all

/-- The digits before and after the point, read as one number, are the number of the decimal. -/
theorem value_eq (hd : d.Printable) : d.value =
    Nat.ofDigitChars 10 (d.whole ++ d.fraction) 0 * 10 ^ (-(d.fraction.length : ℤ)) := by
  have hpos : 0 < d.digits.length := List.length_pos_of_ne_nil hd.nonempty
  unfold value
  by_cases h0 : d.point ≤ 0
  · -- all digits stand behind the point, after some zeros
    have hwhole : d.whole = ['0'] := if_pos h0
    have hfraction : d.fraction = List.replicate (-d.point).toNat '0' ++ d.digits := by
      have hdrop : d.point.toNat = 0 := by omega
      simp [fraction, hdrop, hd.nonempty]
    have hread : Nat.ofDigitChars 10 (d.whole ++ d.fraction) 0 =
        Nat.ofDigitChars 10 d.digits 0 := by
      rw [hwhole, hfraction, ← List.append_assoc]
      exact ofDigitChars_zeros_append ((-d.point).toNat + 1) d.digits
    have hexp : -(d.fraction.length : ℤ) = d.point - d.digits.length := by
      rw [hfraction, List.length_append, List.length_replicate]
      omega
    rw [hread, hexp]
  · by_cases hlt : d.point < d.digits.length
    · -- the point stands between two digits
      have hwhole : d.whole = d.digits.take d.point.toNat := by
        have hzeros : d.point.toNat - d.digits.length = 0 := by omega
        simp [whole, h0, hzeros]
      have hfraction : d.fraction = d.digits.drop d.point.toNat := by
        have hzeros : (-d.point).toNat = 0 := by omega
        have hne : d.digits.drop d.point.toNat ≠ [] := by
          rw [Ne, List.drop_eq_nil_iff]
          omega
        simp [fraction, hzeros, hne]
      have hexp : -(d.fraction.length : ℤ) = d.point - d.digits.length := by
        rw [hfraction, List.length_drop]
        omega
      rw [hexp, hwhole, hfraction, List.take_append_drop]
    · -- all digits stand before the point, and some zeros after them
      have hwhole : d.whole =
          d.digits ++ List.replicate (d.point.toNat - d.digits.length) '0' := by
        have htake : d.digits.take d.point.toNat = d.digits := List.take_of_length_le (by omega)
        simp [whole, h0, htake]
      have hfraction : d.fraction = ['0'] := by
        have hzeros : (-d.point).toNat = 0 := by omega
        have hdrop : d.digits.drop d.point.toNat = [] := List.drop_eq_nil_of_le (by omega)
        simp [fraction, hzeros, hdrop]
      have hread : Nat.ofDigitChars 10 (d.whole ++ d.fraction) 0 =
          10 ^ (d.point.toNat - d.digits.length + 1) * Nat.ofDigitChars 10 d.digits 0 := by
        rw [hwhole, hfraction, List.append_assoc, ← ofDigitChars_append_zeros,
          List.replicate_succ']
      have hexp : d.point - d.digits.length =
          ((d.point.toNat - d.digits.length + 1 : ℕ) : ℤ) + -1 := by omega
      rw [hread, hexp, zpow_add₀ (by norm_num), zpow_natCast, hfraction]
      push_cast
      simp only [List.length_cons, List.length_nil]
      ring

theorem value_eq_of_plain_eq (hd : d.Printable) (he : e.Printable) (h : d.plain = e.plain) :
    d.value = e.value := by
  have hpoint : '.' ∉ d.whole ++ d.fraction :=
    not_mem_of_isDigit (isDigit_of_mem_parts hd) (by decide)
  rw [List.mem_append, not_or] at hpoint
  rw [plain_eq, plain_eq] at h
  obtain ⟨hwhole, -, hfraction⟩ := (List.append_cons_inj_of_notMem hpoint.1 hpoint.2).mp h
  rw [value_eq hd, value_eq he, hwhole, hfraction]

end Plain

/-! ### Layout with an exponent -/

/-- The exponent as it is written after the letter. -/
def exponentText (signed : Bool) (e : ℤ) : List Char :=
  (if e < 0 then ['-'] else if signed then ['+'] else []) ++ Nat.toDigits 10 e.natAbs

theorem isDigit_of_mem_toDigits {n : ℕ} : ∀ c ∈ Nat.toDigits 10 n, c.isDigit := fun _ hc =>
  Nat.isDigit_of_mem_toDigits (by decide) (by decide) hc

theorem toDigits_inj {m n : ℕ} (h : Nat.toDigits 10 m = Nat.toDigits 10 n) : m = n := by
  rw [← @Nat.ofDigitChars_ten_toDigits m, h, Nat.ofDigitChars_ten_toDigits]

theorem minus_mem_exponentText_iff {signed : Bool} {e : ℤ} :
    '-' ∈ exponentText signed e ↔ e < 0 := by
  have hdigits : '-' ∉ Nat.toDigits 10 e.natAbs :=
    not_mem_of_isDigit isDigit_of_mem_toDigits (by decide)
  unfold exponentText
  by_cases he : e < 0
  · simp [he]
  · cases signed <;> simp [he, hdigits]

theorem e_not_mem_exponentText {signed : Bool} {e : ℤ} : 'e' ∉ exponentText signed e := by
  have hdigits : 'e' ∉ Nat.toDigits 10 e.natAbs :=
    not_mem_of_isDigit isDigit_of_mem_toDigits (by decide)
  unfold exponentText
  by_cases he : e < 0
  · simp [he, hdigits]
  · cases signed <;> simp [he, hdigits]

theorem exponentText_inj {signed : Bool} {e e' : ℤ}
    (h : exponentText signed e = exponentText signed e') : e = e' := by
  have hsign : e < 0 ↔ e' < 0 := by
    rw [← minus_mem_exponentText_iff, h, minus_mem_exponentText_iff]
  unfold exponentText at h
  by_cases he : e < 0
  · rw [if_pos he, if_pos (hsign.mp he)] at h
    have habs := toDigits_inj (List.append_cancel_left h)
    omega
  · rw [if_neg he, if_neg (mt hsign.mpr he)] at h
    have habs := toDigits_inj (List.append_cancel_left h)
    omega

/-- An integer that stands alone is written like an exponent without a plus sign. -/
theorem toList_repr (z : ℤ) : z.repr.toList = exponentText false z := by
  cases z with
  | ofNat n => simp [Int.repr, exponentText]
  | negSucc n => simp [Int.repr, exponentText, Int.negSucc_lt_zero]

theorem repr_inj {y z : ℤ} (h : y.repr = z.repr) : y = z := by
  have htext := congrArg String.toList h
  rw [toList_repr, toList_repr] at htext
  exact exponentText_inj htext

/-- The digits are what stands before the letter, but for the point. -/
theorem exists_scientific_eq {d : Decimal} (hd : d.Printable) (signed : Bool) :
    ∃ mantissa, d.scientific signed = mantissa ++ 'e' :: exponentText signed (d.point - 1) ∧
      'e' ∉ mantissa ∧ mantissa.filter (· != '.') = d.digits := by
  have he : 'e' ∉ d.digits := not_mem_of_isDigit hd.isDigit (by decide)
  have hpoint : '.' ∉ d.digits := not_mem_of_isDigit hd.isDigit (by decide)
  have hself : d.digits.filter (· != '.') = d.digits := by
    rw [List.filter_eq_self]
    intro c hc
    have hne : c ≠ '.' := fun heq => hpoint (heq ▸ hc)
    simp [hne]
  unfold scientific
  match hds : d.digits with
  | [] => exact absurd hds hd.nonempty
  | [c] =>
    rw [hds] at he hself
    exact ⟨[c], rfl, he, hself⟩
  | c :: x :: cs =>
    rw [hds] at he hself
    refine ⟨c :: '.' :: x :: cs, rfl, ?_, ?_⟩
    · simp only [List.mem_cons, not_or] at he ⊢
      exact ⟨he.1, by decide, he.2⟩
    · have hskip : (c :: '.' :: x :: cs).filter (· != '.') = (c :: x :: cs).filter (· != '.') := by
        simp [List.filter_cons]
      rw [hskip, hself]

theorem eq_of_scientific_eq {d e : Decimal} (hd : d.Printable) (he : e.Printable) {signed : Bool}
    (h : d.scientific signed = e.scientific signed) : d = e := by
  obtain ⟨m, hm, hem, hdigits⟩ := exists_scientific_eq hd signed
  obtain ⟨m', hm', -, hdigits'⟩ := exists_scientific_eq he signed
  rw [hm, hm'] at h
  obtain ⟨rfl, -, hexps⟩ := (List.append_cons_inj_of_notMem hem e_not_mem_exponentText).mp h
  have hpoint : d.point = e.point := by
    have := exponentText_inj hexps
    omega
  have hdigits : d.digits = e.digits := hdigits.symm.trans hdigits'
  exact congrArg₂ Decimal.mk hdigits hpoint

/-! ### Telling layouts apart -/

theorem plain_ne_scientific {d e : Decimal} (hd : d.Printable) (he : e.Printable) {signed : Bool} :
    d.plain ≠ e.scientific signed := by
  obtain ⟨m, hm, -⟩ := exists_scientific_eq he signed
  intro h
  have hmem : 'e' ∈ d.plain := by
    rw [h, hm]
    simp
  exact not_mem_plain hd (by decide) (by decide) hmem

theorem head?_plain_ne {d : Decimal} (hd : d.Printable) : d.plain.head? ≠ some '-' :=
  fun h => not_mem_plain hd (by decide) (by decide) (List.mem_of_mem_head? h)

theorem head?_scientific_ne {d : Decimal} (hd : d.Printable) {signed : Bool} :
    (d.scientific signed).head? ≠ some '-' := by
  have hminus : '-' ∉ d.digits := not_mem_of_isDigit hd.isDigit (by decide)
  unfold scientific
  match hds : d.digits with
  | [] => exact absurd hds hd.nonempty
  | [c] | c :: x :: cs =>
    rw [hds] at hminus
    rintro ⟨⟩
    exact hminus List.mem_cons_self

end Decimal

end SourceModel
