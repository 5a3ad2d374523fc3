import Mathlib.Data.Int.ModEq
import SourceModel.Proofs.TokenClasses

/-!
# Integer texts

The text of a whole number has a mark that tells the radix, digits and underscores, and perhaps the
letter of a long number (`IntegerText`). Such a text is read as the word of the number that its
digits write, if there are digits, all of them are digits of the radix, and the number is not too
large (`Literal.valueOf_integerText`). A word stands for the numbers that leave its remainder
(`Literal.eq_word_iff`).
-/

namespace SourceModel.Literal

/-- The text of a whole number, with its radix and its digits, underscores included. After `0x` or
`0b` there may be any hexadecimal digits, or none; a zero before other digits means radix eight,
even if there are digits that this radix has not. -/
inductive IntegerText : List Char → Nat → List Char → Prop
  | hex {mark : Char} {digits suffix : List Char} : mark = 'x' ∨ mark = 'X' →
      IsDigits 16 digits → IsLongSuffix suffix →
      IntegerText ('0' :: mark :: (digits ++ suffix)) 16 digits
  | binary {mark : Char} {digits suffix : List Char} : mark = 'b' ∨ mark = 'B' →
      IsDigits 16 digits → IsLongSuffix suffix →
      IntegerText ('0' :: mark :: (digits ++ suffix)) 2 digits
  | octal {digits suffix : List Char} : digits ≠ [] →
      IsDigits 10 digits → IsLongSuffix suffix → IntegerText ('0' :: (digits ++ suffix)) 8 digits
  | decimal {first : Char} {d : Nat} {digits suffix : List Char} : IsDigit 10 first d →
      (d = 0 → digits = []) → IsDigits 10 digits → IsLongSuffix suffix →
      IntegerText (first :: (digits ++ suffix)) 10 (first :: digits)

/-- The digits without the underscores between them. -/
def withoutUnderscores (digits : List Char) : List Char :=
  digits.filter (· != '_')

/-! ## Words -/

/-- The word of a number, read as a signed number. -/
def word (n : Nat) : Int64 :=
  (UInt64.ofNat n).toInt64

theorem eq_of_modEq {v w : Int64} (h : v.toInt ≡ w.toInt [ZMOD 2 ^ 64]) : v = w := by
  have hv := v.le_toInt
  have hv' := v.toInt_lt
  have hw := w.le_toInt
  have hw' := w.toInt_lt
  unfold Int.ModEq at h
  exact Int64.toInt_inj.mp (by omega)

theorem word_modEq (n : Nat) : (word n).toInt ≡ n [ZMOD 2 ^ 64] := by
  rw [word, UInt64.toInt64_ofNat', Int64.toInt_ofNat']
  exact Int.bmod_emod

theorem eq_word_iff {v : Int64} {n : Nat} : v = word n ↔ v.toInt ≡ n [ZMOD 2 ^ 64] := by
  constructor
  · rintro rfl
    exact word_modEq n
  · intro h
    exact eq_of_modEq (h.trans (word_modEq n).symm)

/-! ## The value of digits -/

section Digits

variable {radix n : Nat} {digits : List Char}

theorem integerValue_of_writes (h : Writes radix (withoutUnderscores digits) n)
    (hn : n ≤ largest radix) : integerValue radix digits = .ok (.int (word n)) := by
  have hne : digits.filter (· != '_') ≠ [] := h.ne_nil
  have hnumber : number? radix (digits.filter (· != '_')) = some n := h.number?
  unfold integerValue
  dsimp only
  rw [if_neg hne, hnumber]
  exact if_pos hn

theorem exists_fault_of_not_writes
    (h : ∀ n, Writes radix (withoutUnderscores digits) n → ¬ n ≤ largest radix) :
    ∃ fault, integerValue radix digits = .error fault := by
  unfold integerValue
  dsimp only
  split
  · exact ⟨_, rfl⟩
  · next hne =>
    split
    · next n hnumber => exact ⟨_, if_neg (h n ((number?_eq_some_iff hne).mp hnumber))⟩
    · exact ⟨_, rfl⟩

theorem IsDigits.of_writes (h : Writes radix (withoutUnderscores digits) n) :
    IsDigits radix digits := by
  intro c hc
  by_cases hunderscore : c = '_'
  · exact .inl hunderscore
  · exact .inr (h.exists_isDigit c (List.mem_filter.mpr ⟨hc, by simpa using hunderscore⟩))

end Digits

/-! ## The value of a text -/

section Texts

variable {radix n : Nat} {cs digits : List Char}

theorem IsDigits.unique {radix' : Nat} {digits' suffix suffix' : List Char}
    (h : IsDigits radix digits) (h' : IsDigits radix' digits') (hs : IsLongSuffix suffix)
    (hs' : IsLongSuffix suffix') (heq : digits ++ suffix = digits' ++ suffix') :
    digits = digits' := by
  rw [← dropLongSuffix_append h hs, heq, dropLongSuffix_append h' hs']

/-- After the mark of a radix there are digits of the radix, or what is written is no number. -/
theorem valueOf_marked (cls : TokenClass) {lower upper mark : Char} {suffix : List Char}
    (hcls : ∀ cs, cls.scan? cs = scanMarked? lower upper radix cs)
    (honly : TokenClass.only ('0' :: mark :: (digits ++ suffix)) = cls)
    (hmark : mark = lower ∨ mark = upper) (hdigits : IsDigits 16 digits)
    (hsuffix : IsLongSuffix suffix) :
    valueOf ('0' :: mark :: (digits ++ suffix)) = integerValue radix digits ∨
    (∃ fault, valueOf ('0' :: mark :: (digits ++ suffix)) = .error fault) ∧
      ∀ n, ¬ Writes radix (withoutUnderscores digits) n := by
  by_cases h : digits ≠ [] ∧ IsDigits radix digits
  · left
    refine valueOf_of_scan? cls (t := .integer radix digits) ((hcls _).trans ?_)
    exact scanMarked?_eq_some_iff.mpr ⟨mark, digits, suffix, hmark, h.1, h.2, hsuffix, rfl, rfl⟩
  · right
    -- no other class can have the text, because of its mark
    have hnone : Token.scan? ('0' :: mark :: (digits ++ suffix)) = none := by
      refine Option.eq_none_iff_forall_ne_some.mpr fun t ht => ?_
      obtain ⟨cls', hscan⟩ := Token.scan?_eq_some_iff.mp ht
      rw [TokenClass.eq_only_of_scan? hscan, honly, hcls, scanMarked?_eq_some_iff] at hscan
      obtain ⟨_, digits', suffix', -, hne, hdigits', hsuffix', heq, -⟩ := hscan
      simp only [List.cons.injEq, true_and] at heq
      obtain rfl := hdigits.unique hdigits' hsuffix hsuffix' heq.2
      exact h ⟨hne, hdigits'⟩
    refine ⟨⟨_, by rw [valueOf, hnone]⟩, fun n hn => h ⟨?_, .of_writes hn⟩⟩
    rintro rfl
    exact hn.ne_nil rfl

/-- The text of a whole number has the value of its digits. -/
theorem valueOf_integerText (h : IntegerText cs radix digits) :
    valueOf cs = integerValue radix digits ∨
    (∃ fault, valueOf cs = .error fault) ∧ ∀ n, ¬ Writes radix (withoutUnderscores digits) n := by
  cases h with
  | hex hmark hdigits hsuffix =>
    refine valueOf_marked .hex (fun _ => rfl) ?_ hmark hdigits hsuffix
    rcases hmark with rfl | rfl <;> rfl
  | binary hmark hdigits hsuffix =>
    refine valueOf_marked .binary (fun _ => rfl) ?_ hmark hdigits hsuffix
    rcases hmark with rfl | rfl <;> rfl
  | octal hne hdigits hsuffix =>
    left
    refine valueOf_of_scan? .decimal (t := .integer 8 digits) ?_
    refine scanUnmarked?_eq_some_iff.mpr ⟨'0', 0, digits, _, by decide, hdigits, hsuffix, rfl, ?_⟩
    rw [if_pos ⟨rfl, hne⟩]
  | decimal hd hzero hdigits hsuffix =>
    left
    refine valueOf_of_scan? .decimal (t := .integer 10 _) ?_
    refine scanUnmarked?_eq_some_iff.mpr ⟨_, _, _, _, hd, hdigits, hsuffix, rfl, ?_⟩
    rw [if_neg]
    rintro ⟨rfl, hne⟩
    have hzero_digit : IsDigit 10 '0' 0 := by decide
    exact hne (hzero (hd.unique hzero_digit))

theorem IsDigits.mono {radix' : Nat} (h : IsDigits radix digits) (hle : radix ≤ radix') :
    IsDigits radix' digits := by
  intro c hc
  refine (h c hc).imp_right fun ⟨d, hd⟩ => ⟨d, Nat.lt_of_lt_of_le hd.1 hle, hd.2⟩

/-- Only the text of a whole number gives the token of one. -/
theorem integerText_of_scan? {cls : TokenClass} (h : cls.scan? cs = some (.integer radix digits)) :
    IntegerText cs radix digits := by
  rcases TokenClass.gives_of_scan? h with rfl | rfl | rfl
  · obtain ⟨mark, digits, suffix, hmark, -, hdigits, hsuffix, rfl, ht⟩ :=
      scanMarked?_eq_some_iff.mp h
    cases ht
    exact .hex hmark hdigits hsuffix
  · obtain ⟨mark, digits, suffix, hmark, -, hdigits, hsuffix, rfl, ht⟩ :=
      scanMarked?_eq_some_iff.mp h
    cases ht
    exact .binary hmark (hdigits.mono (by decide)) hsuffix
  · obtain ⟨first, d, digits, suffix, hd, hdigits, hsuffix, rfl, ht⟩ :=
      scanUnmarked?_eq_some_iff.mp h
    split at ht
    · next hzero =>
      obtain ⟨rfl, hne⟩ := hzero
      cases ht
      exact .octal hne hdigits hsuffix
    · next hzero =>
      cases ht
      refine .decimal hd (fun hd0 => ?_) hdigits hsuffix
      subst hd0
      exact of_not_not fun hne => hzero ⟨hd.eq_zero, hne⟩

theorem integerText_of_valueOf {v : Int64} (h : valueOf cs = .ok (.int v)) :
    ∃ radix digits, IntegerText cs radix digits := by
  obtain ⟨cls, t, hscan, hvalue⟩ := valueOf_eq_ok_iff.mp h
  obtain ⟨radix, digits, rfl⟩ := Token.makes_of_value hvalue
  exact ⟨radix, digits, integerText_of_scan? hscan⟩

/-- The text of a whole number is read if its digits write a number that is not too large. -/
theorem valueOf_integerText_cases (h : IntegerText cs radix digits) :
    (∃ n, Writes radix (withoutUnderscores digits) n ∧ n ≤ largest radix ∧
      valueOf cs = .ok (.int (word n))) ∨
    (∃ fault, valueOf cs = .error fault) ∧
      ∀ n, Writes radix (withoutUnderscores digits) n → ¬ n ≤ largest radix := by
  rcases valueOf_integerText h with hvalue | ⟨hfault, hnone⟩
  · rw [hvalue]
    by_cases hn : ∃ n, Writes radix (withoutUnderscores digits) n ∧ n ≤ largest radix
    · obtain ⟨n, hwrites, hle⟩ := hn
      exact .inl ⟨n, hwrites, hle, integerValue_of_writes hwrites hle⟩
    · have hnone : ∀ n, Writes radix (withoutUnderscores digits) n → ¬ n ≤ largest radix :=
        fun n hwrites hle => hn ⟨n, hwrites, hle⟩
      exact .inr ⟨exists_fault_of_not_writes hnone, hnone⟩
  · exact .inr ⟨hfault, fun n hwrites => absurd hwrites (hnone n)⟩

end Texts

theorem le_largest_iff {radix n : Nat} :
    n ≤ largest radix ↔ if radix = 10 then n ≤ 2 ^ 63 else n < 2 ^ 64 := by
  unfold largest
  split <;> omega

/-! ## Reading -/

/-- Whole numbers are read from the texts of whole numbers alone. Such a text gives the word of the
number that its digits write, which may be any word, but in decimal at most the magnitude of the
least signed number. Any other such text gives an error with the text. -/
theorem read_integer_text (text : String) :
    (∀ v, read text = .ok (.int v) →
      ∃ radix digits, IntegerText (Text.trim text.toList) radix digits) ∧
    ∀ radix digits, IntegerText (Text.trim text.toList) radix digits →
      (∀ v, read text = .ok (.int v) ↔ ∃ n, Writes radix (withoutUnderscores digits) n ∧
        (if radix = 10 then n ≤ 2 ^ 63 else n < 2 ^ 64) ∧
        v.toInt ≡ n [ZMOD 2 ^ 64] ∧ -2 ^ 63 ≤ v.toInt ∧ v.toInt < 2 ^ 63) ∧
      ((∃ fault, read text = .error ⟨String.ofList (Text.trim text.toList), fault⟩) ↔
        ¬ ∃ n, Writes radix (withoutUnderscores digits) n ∧
          (if radix = 10 then n ≤ 2 ^ 63 else n < 2 ^ 64)) := by
  simp only [read_eq_ok_iff, read_eq_error_iff, ← le_largest_iff]
  refine ⟨fun v => integerText_of_valueOf, fun radix digits h => ?_⟩
  rcases valueOf_integerText_cases h with ⟨n, hwrites, hle, hvalue⟩ | ⟨⟨fault, hvalue⟩, hnone⟩
  · rw [hvalue]
    refine ⟨fun v => ⟨?_, ?_⟩, ?_⟩
    · rintro ⟨⟩
      exact ⟨n, hwrites, hle, word_modEq n, Int64.le_toInt _, Int64.toInt_lt _⟩
    · rintro ⟨m, hm, -, hv, -⟩
      rw [hm.unique hwrites, ← eq_word_iff] at hv
      rw [hv]
    · constructor
      · rintro ⟨fault, _, ⟨⟩, -⟩
      · exact fun hnone => absurd ⟨n, hwrites, hle⟩ hnone
  · rw [hvalue]
    refine ⟨fun v => ⟨nofun, ?_⟩, fun _ => ?_, fun _ => ⟨fault, fault, rfl, rfl⟩⟩
    · rintro ⟨n, hwrites, hle, -⟩
      exact absurd hle (hnone n hwrites)
    · rintro ⟨n, hwrites, hle⟩
      exact hnone n hwrites hle

theorem read_all_ones_and_too_large :
    IntegerText (Text.trim " 0xFFFF_FFFF_FFFF_FFFFL".toList) 16 "FFFF_FFFF_FFFF_FFFF".toList ∧
    read " 0xFFFF_FFFF_FFFF_FFFFL" = .ok (.int (-1)) ∧
    IntegerText (Text.trim "9223372036854775809".toList) 10 "9223372036854775809".toList ∧
    ∃ fault, read "9223372036854775809" = .error ⟨"9223372036854775809", fault⟩ := by
  have hones : Text.trim " 0xFFFF_FFFF_FFFF_FFFFL".toList =
      '0' :: 'x' :: ("FFFF_FFFF_FFFF_FFFF".toList ++ ['L']) := by decide +kernel
  have hlarge : Text.trim "9223372036854775809".toList =
      '9' :: ("223372036854775809".toList ++ []) := by decide +kernel
  have hones_text : IntegerText (Text.trim " 0xFFFF_FFFF_FFFF_FFFFL".toList) 16
      "FFFF_FFFF_FFFF_FFFF".toList := by
    rw [hones]
    exact .hex (.inl rfl) (all_isDigitOrUnderscore_iff.mp (by decide +kernel)) (.inr (.inr rfl))
  have hlarge_text : IntegerText (Text.trim "9223372036854775809".toList) 10
      "9223372036854775809".toList := by
    rw [hlarge]
    exact .decimal (d := 9) (by decide) nofun (all_isDigitOrUnderscore_iff.mp (by decide +kernel))
      (.inl rfl)
  refine ⟨hones_text, ?_, hlarge_text, ?_⟩
  · refine (((read_integer_text _).2 _ _ hones_text).1 _).mpr
      ⟨2 ^ 64 - 1, (number?_eq_some_iff (by decide +kernel)).mp (by decide +kernel), ?_⟩
    decide +kernel
  · refine ((read_integer_text _).2 _ _ hlarge_text).2.mpr ?_
    rintro ⟨n, hwrites, hn⟩
    have hnumber : n = 9223372036854775809 :=
      hwrites.unique ((number?_eq_some_iff (by decide +kernel)).mp (by decide +kernel))
    subst hnumber
    exact absurd hn (by decide)

end SourceModel.Literal
