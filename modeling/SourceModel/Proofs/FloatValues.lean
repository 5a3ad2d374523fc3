import Mathlib.Data.List.DropRight
import SourceModel.Proofs.IntegerTexts

/-!
# Floating-point values

Without its letter and its underscores, the text of a floating-point literal is a decimal number
that has at least one digit (`FloatText.decimal`). The value of the literal is the double nearest
to that number.
-/

namespace SourceModel.Literal

/-! ## Decimal numbers -/

/-- Digits, one or more, perhaps with a point among them, and perhaps an exponent. -/
structure DecimalText where
  whole : List Char
  fraction : Option (List Char)
  exponent : Option ExponentText
  isDigit : ∀ c ∈ whole ++ fraction.getD [], ∃ d, IsDigit 10 c d
  ne_nil : whole ++ fraction.getD [] ≠ []

namespace DecimalText

def text (n : DecimalText) : List Char :=
  n.whole ++ fractionText n.fraction ++ exponentText n.exponent

/-- The double is nearest to the number that is written: that of all digits, with the point moved
as the exponent says. -/
def Denotes (n : DecimalText) (x : Binary64) : Prop :=
  ∃ (m : Nat) (k : Int), Writes 10 (n.whole ++ n.fraction.getD []) m ∧
    n.exponent.elim (k = 0) (·.Denotes k) ∧ x = .ofDecimal m (k - (n.fraction.getD []).length)

end DecimalText

theorem withoutUnderscores_append (front rest : List Char) :
    withoutUnderscores (front ++ rest) = withoutUnderscores front ++ withoutUnderscores rest :=
  List.filter_append ..

theorem mem_withoutUnderscores_iff {c : Char} {digits : List Char} :
    c ∈ withoutUnderscores digits ↔ c ∈ digits ∧ c ≠ '_' := by
  simp [withoutUnderscores]

theorem withoutUnderscores_eq_self {cs : List Char} (h : '_' ∉ cs) : withoutUnderscores cs = cs := by
  refine List.filter_eq_self.mpr fun c hc => ?_
  rw [bne_iff_ne]
  rintro rfl
  exact h hc

theorem IsDigit.ne_underscore {radix d : Nat} {c : Char} (h : IsDigit radix c d) : c ≠ '_' := by
  rintro rfl
  cases (isDigit_iff.mp h).1

theorem isFloatSuffix_of_isDigit {c : Char} (h : ∃ d, IsDigit 10 c d) :
    isFloatSuffix c = false := by
  rw [Bool.eq_false_iff]
  intro hsuffix
  rw [← isDigitOf_iff, isDigitOf_of_isFloatSuffix hsuffix] at h
  cases h

theorem ExponentText.underscore_not_mem (e : ExponentText) : '_' ∉ e.text := by
  intro hc
  rcases e.mem_text hc with h | h | ⟨d, hd⟩
  · simp at h
  · simp at h
  · exact hd.ne_underscore rfl

namespace FloatText

variable (f : FloatText)

theorem withoutUnderscores_digits :
    withoutUnderscores f.whole ++ (f.fraction.map withoutUnderscores).getD [] =
      withoutUnderscores (f.whole ++ f.fraction.getD []) := by
  rw [withoutUnderscores_append]
  cases f.fraction <;> rfl

/-- The number without the letter and the underscores. -/
def decimal : DecimalText where
  whole := withoutUnderscores f.whole
  fraction := f.fraction.map withoutUnderscores
  exponent := f.exponent
  isDigit c hc := by
    rw [f.withoutUnderscores_digits, mem_withoutUnderscores_iff] at hc
    exact (f.isDigits c hc.1).resolve_left hc.2
  ne_nil := by
    obtain ⟨c, hc, d, hd⟩ := f.head
    rw [f.withoutUnderscores_digits]
    refine List.ne_nil_of_mem (mem_withoutUnderscores_iff.mpr ⟨?_, hd.ne_underscore⟩)
    exact List.mem_of_mem_head? hc

theorem denotes_value : f.decimal.Denotes f.token.value := by
  obtain ⟨m, hm⟩ := exists_writes f.decimal.ne_nil f.decimal.isDigit
  refine ⟨m, (f.exponent.map fun e => e.token.value).getD 0, hm, ?_, ?_⟩
  · show f.exponent.elim _ _
    cases f.exponent with
    | none => rfl
    | some e => exact e.exists_denotes
  · have hnumber := hm.number?
    have hfraction : (f.fraction.map withoutUnderscores).getD [] =
        withoutUnderscores (f.fraction.getD []) := by cases f.fraction <;> rfl
    simp only [decimal, hfraction] at hnumber ⊢
    unfold FloatToken.value token
    unfold withoutUnderscores at hnumber ⊢
    simp only [hnumber, Option.map_map, Option.getD_some]
    rfl

/-- Only at the end there may be the letter of a floating-point number. -/
theorem not_isFloatSuffix_of_mem {c : Char}
    (hc : c ∈ f.whole ++ fractionText f.fraction ++ exponentText f.exponent) :
    isFloatSuffix c = false := by
  rcases f.mem_body hc with (rfl | hdigit) | rfl | (rfl | rfl) | (rfl | rfl) | hdigit
  · rfl
  · exact isFloatSuffix_of_isDigit hdigit
  · rfl
  · rfl
  · rfl
  · rfl
  · rfl
  · exact isFloatSuffix_of_isDigit hdigit

theorem text_decimal : f.decimal.text = withoutUnderscores (f.text.rdropWhile isFloatSuffix) := by
  have hbody : (f.whole ++ fractionText f.fraction ++ exponentText f.exponent).rdropWhile
      isFloatSuffix = f.whole ++ fractionText f.fraction ++ exponentText f.exponent := by
    refine List.rdropWhile_eq_self_iff.mpr fun hne => ?_
    rw [f.not_isFloatSuffix_of_mem (List.getLast_mem hne)]
    exact Bool.false_ne_true
  have hdrop : f.text.rdropWhile isFloatSuffix =
      f.whole ++ fractionText f.fraction ++ exponentText f.exponent := by
    unfold text
    cases hsuffix : f.suffix with
    | none =>
      rw [Option.toList_none, List.append_nil]
      exact hbody
    | some c =>
      rw [Option.toList_some, List.rdropWhile_concat_pos _ _ _ (f.isSuffix c hsuffix)]
      exact hbody
  have hexponent : withoutUnderscores (exponentText f.exponent) = exponentText f.exponent := by
    cases f.exponent with
    | none => rfl
    | some e => exact withoutUnderscores_eq_self e.underscore_not_mem
  have hfraction : withoutUnderscores (fractionText f.fraction) =
      fractionText (f.fraction.map withoutUnderscores) := by
    cases f.fraction <;> rfl
  rw [hdrop, withoutUnderscores_append, withoutUnderscores_append, hexponent, hfraction]
  rfl

end FloatText

end SourceModel.Literal
