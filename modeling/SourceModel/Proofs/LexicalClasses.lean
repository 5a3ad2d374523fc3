import Mathlib.Computability.Language
import SourceModel.Proofs.FloatValues

/-!
# Lexical classes

The classes of literals as sets of texts, put together from single characters by alternatives,
sequences and repetition (`TokenClass.language`). A class scans just the texts of its language
(`TokenClass.exists_scan?_iff`). No text is in two of these languages, so it does not matter in
which order the classes are tried, or which of them is preferred.
-/

namespace SourceModel.Literal

open Computability

/-! ## Languages of characters -/

namespace Lexical

/-- The texts of one character that is as told. -/
def oneOf (p : Char → Prop) : Language Char :=
  {cs | ∃ c, p c ∧ cs = [c]}

def letter (c : Char) : Language Char :=
  oneOf (· = c)

def optional (l : Language Char) : Language Char :=
  1 + l

/-- One text of the language or several, one after the other. -/
def repeated (l : Language Char) : Language Char :=
  l * l∗

def digit (radix : Nat) : Language Char :=
  oneOf fun c => ∃ d, IsDigit radix c d

def digitOrUnderscore (radix : Nat) : Language Char :=
  oneOf fun c => c = '_' ∨ ∃ d, IsDigit radix c d

def longLetter : Language Char :=
  oneOf fun c => c = 'l' ∨ c = 'L'

def floatLetter : Language Char :=
  oneOf fun c => c = 'f' ∨ c = 'F' ∨ c = 'd' ∨ c = 'D'

def exponent : Language Char :=
  oneOf (fun c => c = 'e' ∨ c = 'E') * optional (oneOf fun c => c = '+' ∨ c = '-') *
    repeated (digit 10)

/-- What may stand between quotes once: a plain character, or a backslash with any character. There
are no line breaks. -/
def quotedPiece (quote : Char) : Language Char :=
  oneOf (fun c => c ≠ quote ∧ c ≠ '\\' ∧ c ≠ '\n') + letter '\\' * oneOf (· ≠ '\n')

variable {p : Char → Prop} {l : Language Char} {cs front rest : List Char}

theorem mem_oneOf_iff : cs ∈ oneOf p ↔ ∃ c, p c ∧ cs = [c] := Iff.rfl

theorem mem_oneOf_mul_iff : cs ∈ oneOf p * l ↔ ∃ c rest, p c ∧ rest ∈ l ∧ cs = c :: rest := by
  rw [Language.mem_mul]
  constructor
  · rintro ⟨_, ⟨c, hc, rfl⟩, rest, hrest, rfl⟩
    exact ⟨c, rest, hc, hrest, rfl⟩
  · rintro ⟨c, rest, hc, hrest, rfl⟩
    exact ⟨[c], ⟨c, hc, rfl⟩, rest, hrest, rfl⟩

theorem mem_letter_mul_iff {c : Char} : cs ∈ letter c * l ↔ ∃ rest ∈ l, cs = c :: rest := by
  unfold letter
  rw [mem_oneOf_mul_iff]
  simp

theorem mem_optional_iff : cs ∈ optional l ↔ cs = [] ∨ cs ∈ l := Iff.rfl

theorem append_mem_kstar (hfront : front ∈ l) (hrest : rest ∈ l∗) : front ++ rest ∈ l∗ := by
  rw [← Language.one_add_self_mul_kstar_eq_kstar]
  exact .inr (Language.mem_mul.mpr ⟨front, hfront, rest, hrest, rfl⟩)

theorem mem_repeated_iff (h : [] ∉ l) : cs ∈ repeated l ↔ cs ≠ [] ∧ cs ∈ l∗ := by
  constructor
  · intro hcs
    obtain ⟨front, hfront, rest, hrest, rfl⟩ := Language.mem_mul.mp hcs
    refine ⟨fun hnil => ?_, append_mem_kstar hfront hrest⟩
    rw [(List.append_eq_nil_iff.mp hnil).1] at hfront
    exact h hfront
  · rintro ⟨hne, hcs⟩
    rw [← Language.one_add_self_mul_kstar_eq_kstar, Language.mem_add] at hcs
    exact hcs.resolve_left hne

theorem nil_not_mem_oneOf : [] ∉ oneOf p := by
  rintro ⟨c, -, hc⟩
  cases hc

theorem mem_kstar_oneOf_iff : cs ∈ (oneOf p)∗ ↔ ∀ c ∈ cs, p c := by
  constructor
  · rintro ⟨parts, rfl, hparts⟩ c hc
    obtain ⟨part, hpart, hc⟩ := List.mem_flatten.mp hc
    obtain ⟨c', hc', rfl⟩ := hparts part hpart
    rw [List.mem_singleton.mp hc]
    exact hc'
  · intro h
    induction cs with
    | nil => exact Language.nil_mem_kstar _
    | cons c cs ih =>
      rw [List.forall_mem_cons] at h
      have hc : [c] ∈ oneOf p := ⟨c, h.1, rfl⟩
      exact append_mem_kstar hc (ih h.2)

theorem mem_repeated_oneOf_iff : cs ∈ repeated (oneOf p) ↔ cs ≠ [] ∧ ∀ c ∈ cs, p c := by
  rw [mem_repeated_iff nil_not_mem_oneOf, mem_kstar_oneOf_iff]

/-! ## Parts of literals -/

theorem mem_kstar_digits_iff {radix : Nat} :
    cs ∈ (digitOrUnderscore radix)∗ ↔ IsDigits radix cs :=
  mem_kstar_oneOf_iff

theorem mem_digits_mul_iff {radix : Nat} :
    cs ∈ (digitOrUnderscore radix)∗ * l ↔
      ∃ digits rest, IsDigits radix digits ∧ rest ∈ l ∧ cs = digits ++ rest := by
  rw [Language.mem_mul]
  constructor
  · rintro ⟨digits, hdigits, rest, hrest, rfl⟩
    exact ⟨digits, rest, mem_kstar_digits_iff.mp hdigits, hrest, rfl⟩
  · rintro ⟨digits, rest, hdigits, hrest, rfl⟩
    exact ⟨digits, mem_kstar_digits_iff.mpr hdigits, rest, hrest, rfl⟩

/-- Digits of which the first is no underscore. -/
theorem mem_number_mul_iff :
    cs ∈ digit 10 * ((digitOrUnderscore 10)∗ * l) ↔
      ∃ digits rest, (IsDigits 10 digits ∧ ∃ c ∈ digits.head?, ∃ d, IsDigit 10 c d) ∧
        rest ∈ l ∧ cs = digits ++ rest := by
  unfold digit
  rw [mem_oneOf_mul_iff]
  constructor
  · rintro ⟨c, _, hc, hmore, rfl⟩
    obtain ⟨digits, rest, hdigits, hrest, rfl⟩ := mem_digits_mul_iff.mp hmore
    refine ⟨c :: digits, rest, ⟨?_, c, rfl, hc⟩, hrest, rfl⟩
    exact List.forall_mem_cons.mpr ⟨.inr hc, hdigits⟩
  · rintro ⟨digits, rest, ⟨hdigits, c, hc, hd⟩, hrest, rfl⟩
    obtain ⟨digits, rfl⟩ := List.head?_eq_some_iff.mp hc
    refine ⟨c, digits ++ rest, hd, mem_digits_mul_iff.mpr ⟨digits, rest, ?_, hrest, rfl⟩, rfl⟩
    exact (List.forall_mem_cons.mp hdigits).2

theorem mem_longSuffix_iff : cs ∈ optional longLetter ↔ IsLongSuffix cs := by
  simp [mem_optional_iff, longLetter, mem_oneOf_iff, IsLongSuffix, or_and_right, exists_or]

theorem isFloatSuffix_iff {c : Char} :
    isFloatSuffix c = true ↔ c = 'f' ∨ c = 'F' ∨ c = 'd' ∨ c = 'D' := by
  simp [isFloatSuffix, or_assoc]

theorem mem_floatLetter_iff : cs ∈ floatLetter ↔ ∃ c, isFloatSuffix c = true ∧ cs = [c] := by
  simp only [isFloatSuffix_iff]
  rfl

theorem mem_floatSuffix_iff : cs ∈ optional floatLetter ↔
    ∃ suffix : Option Char, (∀ c ∈ suffix, isFloatSuffix c = true) ∧ suffix.toList = cs := by
  rw [mem_optional_iff, mem_floatLetter_iff]
  constructor
  · rintro (rfl | ⟨c, hc, rfl⟩)
    · exact ⟨none, by simp, rfl⟩
    · exact ⟨some c, by simpa using hc, rfl⟩
  · rintro ⟨_ | c, hc, rfl⟩
    · exact .inl rfl
    · exact .inr ⟨c, hc c rfl, rfl⟩

theorem mem_exponent_iff : cs ∈ exponent ↔ ∃ e : ExponentText, e.text = cs := by
  unfold exponent digit
  rw [mul_assoc, mem_oneOf_mul_iff]
  constructor
  · rintro ⟨mark, rest, hmark, hrest, rfl⟩
    obtain ⟨sign, hsign, digits, hdigits, rfl⟩ := Language.mem_mul.mp hrest
    obtain ⟨hne, hdigits⟩ := mem_repeated_oneOf_iff.mp hdigits
    rcases hsign with rfl | ⟨c, hc, rfl⟩
    · exact ⟨⟨mark, none, digits, hmark, by simp, hne, hdigits⟩, rfl⟩
    · exact ⟨⟨mark, some c, digits, hmark, by simpa using hc, hne, hdigits⟩, rfl⟩
  · rintro ⟨⟨mark, sign, digits, hmark, hsign, hne, hdigits⟩, rfl⟩
    refine ⟨mark, sign.toList ++ digits, hmark, ?_, rfl⟩
    refine Language.mem_mul.mpr ⟨sign.toList, ?_, digits, ?_, rfl⟩
    · cases sign with
      | none => exact .inl rfl
      | some c => exact .inr ⟨c, hsign c rfl, rfl⟩
    · exact mem_repeated_oneOf_iff.mpr ⟨hne, hdigits⟩

/-- An exponent and what may come behind it. -/
theorem mem_exponent_mul_iff :
    cs ∈ exponent * optional floatLetter ↔ ∃ (e : ExponentText) (suffix : Option Char),
      (∀ c ∈ suffix, isFloatSuffix c = true) ∧ cs = e.text ++ suffix.toList := by
  rw [Language.mem_mul]
  constructor
  · rintro ⟨_, he, _, hrest, rfl⟩
    obtain ⟨e, rfl⟩ := mem_exponent_iff.mp he
    obtain ⟨suffix, hsuffix, rfl⟩ := mem_floatSuffix_iff.mp hrest
    exact ⟨e, suffix, hsuffix, rfl⟩
  · rintro ⟨e, suffix, hsuffix, rfl⟩
    exact ⟨_, mem_exponent_iff.mpr ⟨e, rfl⟩, _, mem_floatSuffix_iff.mpr ⟨suffix, hsuffix, rfl⟩, rfl⟩

theorem mem_floatEnd_iff :
    cs ∈ optional exponent * optional floatLetter ↔
      ∃ (e : Option ExponentText) (suffix : Option Char),
        (∀ c ∈ suffix, isFloatSuffix c = true) ∧ cs = exponentText e ++ suffix.toList := by
  unfold optional
  rw [add_mul, one_mul, Language.mem_add]
  constructor
  · rintro (h | h)
    · obtain ⟨suffix, hsuffix, rfl⟩ := mem_floatSuffix_iff.mp h
      exact ⟨none, suffix, hsuffix, rfl⟩
    · obtain ⟨e, suffix, hsuffix, rfl⟩ := mem_exponent_mul_iff.mp h
      exact ⟨some e, suffix, hsuffix, rfl⟩
  · rintro ⟨_ | e, suffix, hsuffix, rfl⟩
    · exact .inl (mem_floatSuffix_iff.mpr ⟨suffix, hsuffix, rfl⟩)
    · exact .inr (mem_exponent_mul_iff.mpr ⟨e, suffix, hsuffix, rfl⟩)

theorem mem_quotedPiece_iff {quote : Char} :
    cs ∈ quotedPiece quote ↔
      (∃ c, (c ≠ quote ∧ c ≠ '\\' ∧ c ≠ '\n') ∧ cs = [c]) ∨ ∃ c, c ≠ '\n' ∧ cs = ['\\', c] := by
  unfold quotedPiece
  rw [Language.mem_add, mem_letter_mul_iff, mem_oneOf_iff]
  constructor
  · rintro (h | ⟨_, ⟨c, hc, rfl⟩, rfl⟩)
    · exact .inl h
    · exact .inr ⟨c, hc, rfl⟩
  · rintro (h | ⟨c, hc, rfl⟩)
    · exact .inl h
    · exact .inr ⟨[c], ⟨c, hc, rfl⟩, rfl⟩

theorem mem_kstar_quotedPiece_iff {quote : Char} :
    cs ∈ (quotedPiece quote)∗ ↔ QuotedBody quote cs := by
  constructor
  · rintro ⟨parts, rfl, hparts⟩
    induction parts with
    | nil => exact .nil
    | cons part parts ih =>
      rw [List.forall_mem_cons] at hparts
      have hrest := ih hparts.2
      rcases mem_quotedPiece_iff.mp hparts.1 with ⟨c, ⟨hquote, hslash, hbreak⟩, rfl⟩ | ⟨c, hc, rfl⟩
      · exact .plain hquote hslash hbreak hrest
      · exact .escaped hc hrest
  · intro h
    induction h with
    | nil => exact Language.nil_mem_kstar _
    | @plain c cs hquote hslash hbreak _ ih =>
      have hpiece := mem_quotedPiece_iff.mpr (.inl ⟨c, ⟨hquote, hslash, hbreak⟩, rfl⟩)
      exact append_mem_kstar hpiece ih
    | @escaped c cs hc _ ih =>
      have hpiece : ['\\', c] ∈ quotedPiece quote := mem_quotedPiece_iff.mpr (.inr ⟨c, hc, rfl⟩)
      exact append_mem_kstar hpiece ih

theorem mem_repeated_quotedPiece_iff {quote : Char} :
    cs ∈ repeated (quotedPiece quote) ↔ cs ≠ [] ∧ QuotedBody quote cs := by
  rw [mem_repeated_iff, mem_kstar_quotedPiece_iff]
  intro h
  rcases mem_quotedPiece_iff.mp h with ⟨c, -, hc⟩ | ⟨c, -, hc⟩
  · cases hc
  · cases hc

end Lexical

/-! ## The languages of the classes -/

open Lexical

/-- The texts of a class. -/
def TokenClass.language : TokenClass → Language Char
  | .trueWord => {"true".toList}
  | .falseWord => {"false".toList}
  | .nullWord => {"null".toList}
  | .hex =>
    letter '0' * oneOf (fun c => c = 'x' ∨ c = 'X') * repeated (digitOrUnderscore 16) *
      optional longLetter
  | .binary =>
    letter '0' * oneOf (fun c => c = 'b' ∨ c = 'B') * repeated (digitOrUnderscore 2) *
      optional longLetter
  | .decimal => digit 10 * (digitOrUnderscore 10)∗ * optional longLetter
  | .float =>
    digit 10 * (digitOrUnderscore 10)∗ * letter '.' * (digitOrUnderscore 10)∗ *
        optional exponent * optional floatLetter +
      letter '.' * digit 10 * (digitOrUnderscore 10)∗ * optional exponent * optional floatLetter +
      digit 10 * (digitOrUnderscore 10)∗ * exponent * optional floatLetter +
      digit 10 * (digitOrUnderscore 10)∗ * floatLetter
  | .string => letter '"' * (quotedPiece '"')∗ * letter '"'
  | .char => letter '\'' * repeated (quotedPiece '\'') * letter '\''

section Languages

variable {cs : List Char}

/-- The language of a number after the mark of its radix. -/
theorem mem_marked_iff {radix : Nat} {lower upper : Char} :
    cs ∈ letter '0' * oneOf (fun c => c = lower ∨ c = upper) * repeated (digitOrUnderscore radix) *
        optional longLetter ↔
      ∃ t, scanMarked? lower upper radix cs = some t := by
  simp only [mul_assoc, mem_letter_mul_iff, mem_oneOf_mul_iff]
  simp only [scanMarked?_eq_some_iff, Language.mem_mul, mem_longSuffix_iff]
  constructor
  · rintro ⟨_, ⟨mark, _, hmark, ⟨digits, hdigits, suffix, hsuffix, rfl⟩, rfl⟩, rfl⟩
    obtain ⟨hne, hdigits⟩ := mem_repeated_oneOf_iff.mp hdigits
    exact ⟨_, mark, digits, suffix, hmark, hne, hdigits, hsuffix, rfl, rfl⟩
  · rintro ⟨_, mark, digits, suffix, hmark, hne, hdigits, hsuffix, rfl, -⟩
    have hrepeated : digits ∈ repeated (digitOrUnderscore radix) :=
      mem_repeated_oneOf_iff.mpr ⟨hne, hdigits⟩
    exact ⟨_, ⟨mark, _, hmark, ⟨digits, hrepeated, suffix, hsuffix, rfl⟩, rfl⟩, rfl⟩

theorem mem_decimal_iff :
    cs ∈ TokenClass.decimal.language ↔ ∃ t, scanUnmarked? cs = some t := by
  show cs ∈ digit 10 * (digitOrUnderscore 10)∗ * optional longLetter ↔ _
  unfold digit
  rw [mul_assoc, mem_oneOf_mul_iff]
  simp only [scanUnmarked?_eq_some_iff, Language.mem_mul, mem_longSuffix_iff, mem_kstar_digits_iff]
  constructor
  · rintro ⟨first, _, ⟨d, hd⟩, ⟨digits, hdigits, suffix, hsuffix, rfl⟩, rfl⟩
    exact ⟨_, first, d, digits, suffix, hd, hdigits, hsuffix, rfl, rfl⟩
  · rintro ⟨_, first, d, digits, suffix, hd, hdigits, hsuffix, rfl, -⟩
    exact ⟨first, _, ⟨d, hd⟩, ⟨digits, hdigits, suffix, hsuffix, rfl⟩, rfl⟩

theorem mem_string_iff : cs ∈ TokenClass.string.language ↔ ∃ t, scanString? cs = some t := by
  show cs ∈ letter '"' * (quotedPiece '"')∗ * letter '"' ↔ _
  rw [mul_assoc, mem_letter_mul_iff]
  simp only [scanString?_eq_some_iff, Language.mem_mul, mem_kstar_quotedPiece_iff, letter,
    mem_oneOf_iff]
  constructor
  · rintro ⟨_, ⟨body, hbody, _, ⟨_, rfl, rfl⟩, rfl⟩, rfl⟩
    exact ⟨_, body, rfl, hbody, rfl⟩
  · rintro ⟨_, body, rfl, hbody, -⟩
    exact ⟨_, ⟨body, hbody, _, ⟨_, rfl, rfl⟩, rfl⟩, rfl⟩

theorem mem_char_iff : cs ∈ TokenClass.char.language ↔ ∃ t, scanChar? cs = some t := by
  show cs ∈ letter '\'' * repeated (quotedPiece '\'') * letter '\'' ↔ _
  rw [mul_assoc, mem_letter_mul_iff]
  simp only [scanChar?_eq_some_iff, Language.mem_mul, mem_repeated_quotedPiece_iff, letter,
    mem_oneOf_iff]
  constructor
  · rintro ⟨_, ⟨body, ⟨hne, hbody⟩, _, ⟨_, rfl, rfl⟩, rfl⟩, rfl⟩
    exact ⟨_, body, hne, rfl, hbody, rfl⟩
  · rintro ⟨_, body, hne, rfl, hbody, -⟩
    exact ⟨_, ⟨body, ⟨hne, hbody⟩, _, ⟨_, rfl, rfl⟩, rfl⟩, rfl⟩

/-- The four forms of floating-point numbers are told apart by where the digits are and by what
marks the number. -/
theorem mem_float_iff : cs ∈ TokenClass.float.language ↔ ∃ f : FloatText, f.text = cs := by
  unfold TokenClass.language
  simp only [Language.mem_add, mul_assoc, mem_number_mul_iff, mem_letter_mul_iff]
  constructor
  · rintro (((⟨whole, _, ⟨hwhole, c, hc, hd⟩, ⟨_, hmore, rfl⟩, rfl⟩ |
      ⟨_, ⟨fraction, _, ⟨hfraction, hhead⟩, hrest, rfl⟩, rfl⟩) |
      ⟨whole, _, ⟨hwhole, hhead⟩, hrest, rfl⟩) | ⟨whole, _, ⟨hwhole, hhead⟩, hrest, rfl⟩)
    · obtain ⟨fraction, _, hfraction, hrest, rfl⟩ := mem_digits_mul_iff.mp hmore
      obtain ⟨e, suffix, hsuffix, rfl⟩ := mem_floatEnd_iff.mp hrest
      refine ⟨⟨whole, some fraction, e, suffix, isDigits_append.mpr ⟨hwhole, hfraction⟩,
        ⟨c, ?_, hd⟩, hsuffix, .inl rfl⟩, ?_⟩
      · rw [List.head?_append, Option.mem_def.mp hc]
        rfl
      · simp [FloatText.text, fractionText]
    · obtain ⟨e, suffix, hsuffix, rfl⟩ := mem_floatEnd_iff.mp hrest
      refine ⟨⟨[], some fraction, e, suffix, hfraction, hhead, hsuffix, .inl rfl⟩, ?_⟩
      simp [FloatText.text, fractionText]
    · obtain ⟨e, suffix, hsuffix, rfl⟩ := mem_exponent_mul_iff.mp hrest
      refine ⟨⟨whole, none, some e, suffix, by simpa using hwhole, by simpa using hhead, hsuffix,
        .inr (.inl rfl)⟩, ?_⟩
      simp [FloatText.text, fractionText, exponentText]
    · obtain ⟨c, hc, rfl⟩ := mem_floatLetter_iff.mp hrest
      refine ⟨⟨whole, none, none, some c, by simpa using hwhole, by simpa using hhead,
        by simpa using hc, .inr (.inr rfl)⟩, ?_⟩
      simp [FloatText.text, fractionText, exponentText]
  · rintro ⟨⟨whole, fraction, e, suffix, hdigits, hhead, hsuffix, hmarked⟩, rfl⟩
    have hend : exponentText e ++ suffix.toList ∈ optional exponent * optional floatLetter :=
      mem_floatEnd_iff.mpr ⟨e, suffix, hsuffix, rfl⟩
    cases fraction with
    | some fraction =>
      refine .inl (.inl ?_)
      cases whole with
      | nil =>
        refine .inr ⟨_, ⟨fraction, _, ⟨hdigits, hhead⟩, hend, rfl⟩, ?_⟩
        simp [FloatText.text, fractionText]
      | cons c whole =>
        obtain ⟨hwhole, hfraction⟩ := isDigits_append.mp hdigits
        have hrest := mem_digits_mul_iff.mpr ⟨fraction, _, hfraction, hend, rfl⟩
        refine .inl ⟨c :: whole, _, ⟨hwhole, hhead⟩, ⟨_, hrest, rfl⟩, ?_⟩
        simp [FloatText.text, fractionText]
    | none =>
      rw [Option.getD_none, List.append_nil] at hdigits hhead
      cases e with
      | some e =>
        have hrest := mem_exponent_mul_iff.mpr ⟨e, suffix, hsuffix, rfl⟩
        refine .inl (.inr ⟨whole, _, ⟨hdigits, hhead⟩, hrest, ?_⟩)
        simp [FloatText.text, fractionText, exponentText]
      | none =>
        -- neither a point nor an exponent, so there is a letter
        obtain ⟨c, rfl⟩ : ∃ c, suffix = some c := by
          simpa [Option.isSome_iff_exists] using hmarked
        have hrest := mem_floatLetter_iff.mpr ⟨c, hsuffix c rfl, rfl⟩
        refine .inr ⟨whole, _, ⟨hdigits, hhead⟩, hrest, ?_⟩
        simp [FloatText.text, fractionText, exponentText]

theorem exists_scan?_word_iff {word : List Char} {t : Token} :
    (∃ t', (if cs = word then some t else none) = some t') ↔ cs ∈ ({word} : Language Char) := by
  show _ ↔ cs = word
  simp

/-- A class scans the texts of its language, and no others. -/
theorem TokenClass.exists_scan?_iff (cls : TokenClass) :
    (∃ t, cls.scan? cs = some t) ↔ cs ∈ cls.language := by
  cases cls with
  | trueWord => exact exists_scan?_word_iff
  | falseWord => exact exists_scan?_word_iff
  | nullWord => exact exists_scan?_word_iff
  | hex => exact mem_marked_iff.symm
  | binary => exact mem_marked_iff.symm
  | decimal => exact mem_decimal_iff.symm
  | float =>
    rw [mem_float_iff]
    constructor
    · rintro ⟨t, ht⟩
      obtain ⟨f, hf, -⟩ := scanFloat?_eq_some_iff.mp ht
      exact ⟨f, hf⟩
    · rintro ⟨f, hf⟩
      exact ⟨_, scanFloat?_eq_some_iff.mpr ⟨f, hf, rfl⟩⟩
  | string => exact mem_string_iff.symm
  | char => exact mem_char_iff.symm

/-- No text is in the languages of two classes. -/
theorem TokenClass.eq_of_mem_language {cls other : TokenClass} (h : cs ∈ cls.language)
    (hother : cs ∈ other.language) : cls = other := by
  obtain ⟨t, ht⟩ := cls.exists_scan?_iff.mpr h
  obtain ⟨t', ht'⟩ := other.exists_scan?_iff.mpr hother
  rw [eq_only_of_scan? ht, eq_only_of_scan? ht']

end Languages

/-! ## Faults -/

section Faults

variable {cs : List Char} {fault : LiteralFault}

theorem readEscape_ne_notALiteral : readEscape cs ≠ .error .notALiteral := by
  intro h
  unfold readEscape at h
  split at h
  · cases h
  · dsimp only at h
    split at h
    · cases h
    · cases h
  · split at h
    · cases h
    · split at h
      · cases h
      · cases h

theorem unescape_ne_notALiteral : unescape cs ≠ .error .notALiteral := by
  fun_induction unescape cs with
  | case1 => exact fun h => nomatch h
  | case2 cs v rest hread _ ih =>
    intro h
    cases hrest : unescape rest with
    | ok vs =>
      rw [hrest] at h
      cases h
    | error e =>
      rw [hrest] at h ih
      exact ih h
  | case3 cs e hread =>
    rintro ⟨⟩
    exact readEscape_ne_notALiteral hread
  | case4 c cs _ ih =>
    intro h
    cases hrest : unescape cs with
    | ok vs =>
      rw [hrest] at h
      cases h
    | error e =>
      rw [hrest] at h ih
      exact ih h

/-- What is wrong with a token is never that it is none. -/
theorem Token.value_ne_notALiteral (t : Token) : t.value ≠ .error .notALiteral := by
  intro h
  cases t with
  | bool | null | float => cases h
  | integer radix digits =>
    simp only [value, integerValue] at h
    split at h
    · cases h
    · split at h
      · split at h
        · cases h
        · cases h
      · cases h
  | string body =>
    have hbody := @unescape_ne_notALiteral body
    simp only [value] at h
    cases hvs : unescape body with
    | ok vs =>
      rw [hvs] at h
      cases h
    | error e =>
      rw [hvs] at h hbody
      cases h
      exact hbody rfl
  | char body =>
    have hbody := @unescape_ne_notALiteral body
    simp only [value] at h
    rcases hvs : unescape body with e | (_ | ⟨c, _ | ⟨c', vs⟩⟩)
    · rw [hvs] at h hbody
      cases h
      exact hbody rfl
    all_goals
      rw [hvs] at h
      cases h

theorem valueOf_eq_notALiteral_iff :
    valueOf cs = .error .notALiteral ↔ ∀ cls : TokenClass, cs ∉ cls.language := by
  simp only [← TokenClass.exists_scan?_iff]
  constructor
  · rintro h cls ⟨t, ht⟩
    rw [valueOf_of_scan? cls ht] at h
    exact t.value_ne_notALiteral h
  · intro h
    have hnone : Token.scan? cs = none := by
      refine Option.eq_none_iff_forall_ne_some.mpr fun t ht => ?_
      obtain ⟨cls, hcls⟩ := Token.scan?_eq_some_iff.mp ht
      exact h cls ⟨t, hcls⟩
    rw [valueOf, hnone]

theorem reason_eq_notALiteral_iff : fault.reason = "not a literal" ↔ fault = .notALiteral := by
  cases fault <;> simp [LiteralFault.reason]

end Faults

/-! ## Reading -/

/-- The class has the longest match that any class has at the start of the text. -/
def TokenClass.LongestMatch (cs : List Char) (cls : TokenClass) (n : Nat) : Prop :=
  n ≤ cs.length ∧ cs.take n ∈ cls.language ∧
    ∀ (other : TokenClass) (m : Nat), m ≤ cs.length → cs.take m ∈ other.language → m ≤ n

namespace TokenClass

variable {cs : List Char} {cls other : TokenClass} {n m : Nat}

theorem LongestMatch.unique (h : LongestMatch cs cls n) (hother : LongestMatch cs other m) :
    cls = other ∧ n = m := by
  obtain ⟨hn, hcls, hlongest⟩ := h
  obtain ⟨hm, hmem, hlongest'⟩ := hother
  have hnm : n = m := Nat.le_antisymm (hlongest' cls n hn hcls) (hlongest other m hm hmem)
  subst hnm
  exact ⟨eq_of_mem_language hcls hmem, rfl⟩

theorem longestMatch_length_iff : LongestMatch cs cls cs.length ↔ cs ∈ cls.language := by
  unfold LongestMatch
  rw [List.take_length]
  constructor
  · exact fun h => h.2.1
  · exact fun h => ⟨Nat.le_refl _, h, fun _ _ hm _ => hm⟩

end TokenClass

theorem FloatText.read_text (f : FloatText) {text : String} (h : f.text = Text.trim text.toList) :
    read text = .ok (.float f.token.value) := by
  have hscan : TokenClass.float.scan? (Text.trim text.toList) = some (.float f.token) :=
    scanFloat?_eq_some_iff.mpr ⟨f, h, rfl⟩
  rw [read_eq_ok_iff, valueOf_of_scan? .float hscan]
  rfl

/-- The text without the white space around it is in the language of at most one class. So neither
an order of the classes nor a preference among the longest matches ever decides, and a class that
matches longest does so with the whole text if it has it. The text is not a literal just if it is in
none of the languages. In the language of floating point, what is left without the letter and the
underscores is a decimal number, and reading gives the double nearest to it. -/
theorem lexical_classes_are_disjoint (text : String) :
    let cs := Text.trim text.toList
    (∀ cls : TokenClass, (∃ t, cls.scan? cs = some t) ↔ cs ∈ cls.language) ∧
    (∀ cls other : TokenClass, cs ∈ cls.language → cs ∈ other.language → cls = other) ∧
    (∀ (cls other : TokenClass) (n m : Nat), cls.LongestMatch cs n → other.LongestMatch cs m →
      cls = other ∧ n = m) ∧
    (∀ cls : TokenClass, cls.LongestMatch cs cs.length ↔ cs ∈ cls.language) ∧
    (∀ order : List TokenClass, (∀ cls, cls ∈ order) →
      order.findSome? (·.scan? cs) = Token.scan? cs) ∧
    ((∃ e, read text = .error e ∧ e.fault.reason = "not a literal") ↔
      ∀ cls : TokenClass, cs ∉ cls.language) ∧
    (cs ∈ TokenClass.float.language →
      ∃ n : DecimalText, n.text = withoutUnderscores (cs.rdropWhile isFloatSuffix) ∧
        ∃ x, n.Denotes x ∧ read text = .ok (.float x)) := by
  intro cs
  refine ⟨fun cls => cls.exists_scan?_iff, fun _ _ => TokenClass.eq_of_mem_language,
    fun _ _ _ _ => TokenClass.LongestMatch.unique, fun _ => TokenClass.longestMatch_length_iff,
    ?_, ?_, ?_⟩
  · intro order horder
    refine Option.ext fun t => ?_
    rw [findSome?_scan?_eq_some_iff horder, Token.scan?_eq_some_iff]
  · rw [← valueOf_eq_notALiteral_iff]
    constructor
    · rintro ⟨e, he, hreason⟩
      obtain ⟨fault, hvalue, rfl⟩ := read_eq_error_iff.mp he
      rw [← reason_eq_notALiteral_iff.mp hreason]
      exact hvalue
    · intro h
      exact ⟨_, read_eq_error_iff.mpr ⟨_, h, rfl⟩, rfl⟩
  · intro h
    obtain ⟨f, hf⟩ := mem_float_iff.mp h
    refine ⟨f.decimal, ?_, f.token.value, f.denotes_value, f.read_text hf⟩
    rw [f.text_decimal, hf]

/-- A point without digits behind it, underscores and a letter: only floating point matches, and only
with the whole text. -/
theorem lexical_class_of_bare_point :
    Text.trim " 0_7.e+3F ".toList ∈ TokenClass.float.language ∧
    (∀ (cls : TokenClass) (n : Nat), cls.LongestMatch "0_7.e+3F".toList n → cls = .float ∧ n = 8) ∧
    ∃ n : DecimalText, n.text = "07.e+3".toList ∧
      ∃ x, n.Denotes x ∧ read " 0_7.e+3F " = .ok (.float x) := by
  obtain ⟨hscan, -, hunique, hwhole, -, -, hfloat⟩ := lexical_classes_are_disjoint " 0_7.e+3F "
  have htrim : Text.trim " 0_7.e+3F ".toList = "0_7.e+3F".toList := by decide +kernel
  have hmem : Text.trim " 0_7.e+3F ".toList ∈ TokenClass.float.language := by
    refine (hscan .float).mp ⟨.float ⟨"0_7".toList, [], some ⟨false, "3".toList⟩⟩, ?_⟩
    decide +kernel
  refine ⟨hmem, ?_, ?_⟩
  · intro cls n h
    rw [htrim] at hmem hunique hwhole
    exact hunique cls .float n _ h ((hwhole .float).mpr hmem)
  · obtain ⟨n, hn, hx⟩ := hfloat hmem
    refine ⟨n, hn.trans ?_, hx⟩
    rw [htrim]
    decide +kernel

end SourceModel.Literal
