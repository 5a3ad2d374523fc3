import Mathlib.Data.List.Forall2
import Mathlib.Data.Nat.Digits.Defs
import Mathlib.Tactic.IntervalCases
import SourceModel.Literal.Digits

/-!
# Numerals

A numeral writes a number by digits of a radix (`Writes`). The value of a digit is its place among
the lower-case or the upper-case digits, and the last digit of a numeral counts once, the one before
it as often as the radix says, and so on. Reading the digits from left to right gives this number
(`number?_eq_some_iff`).
-/

namespace SourceModel.Literal

/-- The character is a digit of the radix and has the value `d`. -/
def IsDigit (radix : Nat) (c : Char) (d : Nat) : Prop :=
  d < radix ∧
    ("0123456789abcdef".toList[d]? = some c ∨ "0123456789ABCDEF".toList[d]? = some c)

instance (radix : Nat) (c : Char) (d : Nat) : Decidable (IsDigit radix c d) :=
  inferInstanceAs (Decidable (_ ∧ _))

/-- The characters are digits of the radix, one or more, and the number is that of their values. -/
def Writes (radix : Nat) (digits : List Char) (n : Nat) : Prop :=
  digits ≠ [] ∧ ∃ values, List.Forall₂ (IsDigit radix) digits values ∧
    Nat.ofDigits radix values.reverse = n

/-! ## Single digits -/

section Digit

variable {radix d e : Nat} {c : Char}

theorem toNat_lt_of_digitValue? (h : digitValue? c = some d) : c.toNat < 103 := by
  unfold digitValue? at h
  simp only [Char.le_def, UInt32.le_iff_toNat_le, Char.toNat_val, Char.reduceToNat] at h
  grind

theorem digitValue?_eq_some_iff : digitValue? c = some d ↔ IsDigit 16 c d := by
  constructor
  · intro h
    have hall : ∀ n < 103, ∀ d ∈ digitValue? (Char.ofNat n), IsDigit 16 (Char.ofNat n) d := by
      decide
    have hc := hall c.toNat (toNat_lt_of_digitValue? h) d
    rw [Char.ofNat_toNat] at hc
    exact hc h
  · rintro ⟨hlt, h⟩
    interval_cases d <;> rcases h with h | h <;> cases h <;> rfl

theorem isDigit_iff : IsDigit radix c d ↔ digitValue? c = some d ∧ d < radix := by
  rw [digitValue?_eq_some_iff]
  constructor
  · rintro ⟨hlt, h⟩
    have hd : d < 16 := by
      rcases h with h | h
      · exact (List.getElem?_eq_some_iff.mp h).1
      · exact (List.getElem?_eq_some_iff.mp h).1
    exact ⟨⟨hd, h⟩, hlt⟩
  · rintro ⟨⟨-, h⟩, hlt⟩
    exact ⟨hlt, h⟩

theorem isDigitOf_iff : isDigitOf radix c = true ↔ ∃ d, IsDigit radix c d := by
  unfold isDigitOf
  simp only [isDigit_iff]
  cases digitValue? c <;> simp

theorem IsDigit.unique (hd : IsDigit radix c d) (he : IsDigit radix c e) : d = e := by
  have hd := (isDigit_iff.mp hd).1
  rw [(isDigit_iff.mp he).1] at hd
  exact (Option.some.inj hd).symm

theorem IsDigit.eq_zero (h : IsDigit radix c 0) : c = '0' := by
  obtain ⟨-, h | h⟩ := h
  · cases h
    rfl
  · cases h
    rfl

end Digit

/-! ## Several digits -/

section Digits

variable {radix n m : Nat} {cs : List Char}

theorem numberFrom?_eq_some_iff {acc : Nat} : numberFrom? radix acc cs = some n ↔
    ∃ values, List.Forall₂ (IsDigit radix) cs values ∧
      acc * radix ^ cs.length + Nat.ofDigits radix values.reverse = n := by
  induction cs generalizing acc with
  | nil => simp [numberFrom?]
  | cons c cs ih =>
    have hstep : numberFrom? radix acc (c :: cs) = some n ↔
        ∃ d, IsDigit radix c d ∧ numberFrom? radix (acc * radix + d) cs = some n := by
      simp only [numberFrom?, isDigit_iff]
      cases digitValue? c <;> simp
    rw [hstep]
    simp only [ih, List.forall₂_cons_left_iff]
    have hvalue : ∀ d values, List.Forall₂ (IsDigit radix) cs values →
        (acc * radix + d) * radix ^ cs.length + Nat.ofDigits radix values.reverse =
          acc * radix ^ (c :: cs).length + Nat.ofDigits radix (d :: values).reverse := by
      intro d values hvalues
      rw [List.reverse_cons, Nat.ofDigits_append, Nat.ofDigits_singleton, List.length_reverse,
        ← hvalues.length_eq, List.length_cons]
      ring
    constructor
    · rintro ⟨d, hd, values, hvalues, rfl⟩
      exact ⟨d :: values, ⟨d, values, hd, hvalues, rfl⟩, (hvalue d values hvalues).symm⟩
    · rintro ⟨_, ⟨d, values, hd, hvalues, rfl⟩, rfl⟩
      exact ⟨d, hd, values, hvalues, hvalue d values hvalues⟩

theorem number?_eq_some_iff (hcs : cs ≠ []) : number? radix cs = some n ↔ Writes radix cs n := by
  simp [number?, Writes, numberFrom?_eq_some_iff, hcs]

theorem Writes.ne_nil (h : Writes radix cs n) : cs ≠ [] := h.1

theorem Writes.number? (h : Writes radix cs n) : number? radix cs = some n :=
  (number?_eq_some_iff h.1).mpr h

theorem Writes.unique (hn : Writes radix cs n) (hm : Writes radix cs m) : n = m :=
  Option.some.inj (hn.number?.symm.trans hm.number?)

theorem Writes.lt (h : Writes radix cs n) (hr : 1 < radix) : n < radix ^ cs.length := by
  obtain ⟨-, values, hvalues, rfl⟩ := h
  have hlt : ∀ d ∈ values.reverse, d < radix := by
    have hpairs := hvalues.flip.imp fun d c hd => (⟨hd.1, hd⟩ : d < radix ∧ _)
    simpa using ((List.forall₂_and_left values cs).mp hpairs).1
  have h := Nat.ofDigits_lt_base_pow_length hr hlt
  rw [List.length_reverse, ← hvalues.length_eq] at h
  exact h

theorem Writes.exists_isDigit (h : Writes radix cs n) : ∀ c ∈ cs, ∃ d, IsDigit radix c d := by
  obtain ⟨-, values, hvalues, -⟩ := h
  have hpairs := hvalues.imp fun c d hd => (⟨⟨d, hd⟩, hd⟩ : (∃ d, IsDigit radix c d) ∧ _)
  exact ((List.forall₂_and_left cs values).mp hpairs).1

theorem Writes.head?_ne (h : Writes radix cs n) {c : Char} (hc : digitValue? c = none) :
    cs.head? ≠ some c := by
  intro hhead
  obtain ⟨d, hd⟩ := h.exists_isDigit c (List.mem_of_mem_head? hhead)
  rw [(isDigit_iff.mp hd).1] at hc
  cases hc

theorem exists_writes (hne : cs ≠ []) (h : ∀ c ∈ cs, ∃ d, IsDigit radix c d) :
    ∃ n, Writes radix cs n := by
  have hvalues : ∃ values, List.Forall₂ (IsDigit radix) cs values := by
    clear hne
    induction cs with
    | nil => exact ⟨[], .nil⟩
    | cons c cs ih =>
      rw [List.forall_mem_cons] at h
      obtain ⟨⟨d, hd⟩, hcs⟩ := h
      obtain ⟨values, hvalues⟩ := ih hcs
      exact ⟨d :: values, .cons hd hvalues⟩
  obtain ⟨values, hvalues⟩ := hvalues
  exact ⟨_, hne, values, hvalues, rfl⟩

end Digits

end SourceModel.Literal
