import SourceModel.Literal.Reader
import SourceModel.Proofs.Numerals

/-!
# Floating-point texts

The text of a floating-point literal has digits, perhaps with a point among them, and may go on
with an exponent and a letter (`FloatText`). The scanner finds these parts and accepts nothing else
(`scanFloat?_eq_some_iff`).
-/

namespace SourceModel.Literal

/-! ## Digits and marks -/

/-- Digits of the radix and underscores. -/
def IsDigits (radix : Nat) (cs : List Char) : Prop :=
  ∀ c ∈ cs, c = '_' ∨ ∃ d, IsDigit radix c d

/-- The characters that tell a floating-point number from a whole one. -/
def isFloatMark (c : Char) : Bool :=
  c == '.' || c == 'e' || c == 'E' || isFloatSuffix c

section Characters

variable {radix : Nat} {c : Char}

theorem isDigitOrUnderscore_iff :
    isDigitOrUnderscore radix c = true ↔ c = '_' ∨ ∃ d, IsDigit radix c d := by
  simp [isDigitOrUnderscore, isDigitOf_iff, or_comm]

/-- No mark of floating point stands in a whole number. -/
theorem not_isFloatMark (h : isDigitOrUnderscore 10 c ∨ c = 'l' ∨ c = 'L') :
    isFloatMark c = false := by
  rw [Bool.eq_false_iff]
  intro hmark
  simp only [isFloatMark, isFloatSuffix, Bool.or_eq_true, beq_iff_eq] at hmark
  rcases hmark with ((rfl | rfl) | rfl) | (((rfl | rfl) | rfl) | rfl) <;> revert h <;> decide

end Characters

/-! ## Exponents -/

/-- The letter of an exponent, perhaps a sign, and digits. -/
structure ExponentText where
  mark : Char
  sign : Option Char
  digits : List Char
  isMark : mark = 'e' ∨ mark = 'E'
  isSign : ∀ c ∈ sign, c = '+' ∨ c = '-'
  ne_nil : digits ≠ []
  isDigit : ∀ c ∈ digits, ∃ d, IsDigit 10 c d

namespace ExponentText

def text (e : ExponentText) : List Char :=
  e.mark :: (e.sign.toList ++ e.digits)

def token (e : ExponentText) : Exponent :=
  ⟨e.sign == some '-', e.digits⟩

/-- The exponent is the number that the digits write, with its sign. -/
def Denotes (e : ExponentText) (k : Int) : Prop :=
  ∃ n : Nat, Writes 10 e.digits n ∧ k = if e.sign = some '-' then -(n : Int) else n

theorem exists_denotes (e : ExponentText) : e.Denotes e.token.value := by
  obtain ⟨n, hn⟩ := exists_writes e.ne_nil e.isDigit
  refine ⟨n, hn, ?_⟩
  unfold Exponent.value token
  simp [hn.number?]

theorem mem_text (e : ExponentText) {c : Char} (hc : c ∈ e.text) :
    (c = 'e' ∨ c = 'E') ∨ (c = '+' ∨ c = '-') ∨ ∃ d, IsDigit 10 c d := by
  simp only [text, List.mem_cons, List.mem_append, Option.mem_toList] at hc
  rcases hc with rfl | hc | hc
  · exact .inl e.isMark
  · exact .inr (.inl (e.isSign c hc))
  · exact .inr (.inr (e.isDigit c hc))

end ExponentText

/-- The text of an exponent, if there is one. -/
def exponentText (e : Option ExponentText) : List Char :=
  e.elim [] ExponentText.text

/-! ## Where digits end -/

section Spans

variable {p : Char → Bool} {front rest : List Char}

theorem takeWhile_append_stop (hfront : ∀ c ∈ front, p c = true)
    (hrest : ∀ c ∈ rest.head?, p c = false) : (front ++ rest).takeWhile p = front := by
  rw [List.takeWhile_append_of_pos hfront]
  cases rest with
  | nil => simp
  | cons c rest => simp [hrest c rfl]

theorem dropWhile_append_stop (hfront : ∀ c ∈ front, p c = true)
    (hrest : ∀ c ∈ rest.head?, p c = false) : (front ++ rest).dropWhile p = rest := by
  rw [List.dropWhile_append_of_pos hfront]
  cases rest with
  | nil => rfl
  | cons c rest => simp [hrest c rfl]

end Spans

theorem forall_isDigitOf_iff {radix : Nat} {cs : List Char} :
    (∀ c ∈ cs, isDigitOf radix c = true) ↔ ∀ c ∈ cs, ∃ d, IsDigit radix c d :=
  forall₂_congr fun _ _ => isDigitOf_iff

theorem forall_isDigitOrUnderscore_iff {radix : Nat} {cs : List Char} :
    (∀ c ∈ cs, isDigitOrUnderscore radix c = true) ↔ IsDigits radix cs :=
  forall₂_congr fun _ _ => isDigitOrUnderscore_iff

/-- What marks a floating-point number is no digit. -/
theorem isDigitOrUnderscore_of_isFloatMark {c : Char} (h : isFloatMark c = true) :
    isDigitOrUnderscore 10 c = false := by
  rw [Bool.eq_false_iff]
  intro hc
  rw [not_isFloatMark (.inl hc)] at h
  cases h

theorem isDigitOf_of_isFloatSuffix {c : Char} (h : isFloatSuffix c = true) :
    isDigitOf 10 c = false := by
  have hmark : isFloatMark c = true := by simp [isFloatMark, h]
  have hnone := isDigitOrUnderscore_of_isFloatMark hmark
  simp only [isDigitOrUnderscore, Bool.or_eq_false_iff] at hnone
  exact hnone.1

/-! ## The scanner of exponents -/

section Exponents

variable {cs rest : List Char}

theorem scanExponent?_text (e : ExponentText) (hrest : ∀ c ∈ rest.head?, isDigitOf 10 c = false) :
    scanExponent? (e.text ++ rest) = some (some e.token, rest) := by
  obtain ⟨mark, sign, digits, hmark, hsign, hne, hdigits⟩ := e
  have hall := forall_isDigitOf_iff.mpr hdigits
  have htake := takeWhile_append_stop hall hrest
  have hdrop := dropWhile_append_stop hall hrest
  obtain ⟨c, more, rfl⟩ := List.exists_cons_of_ne_nil hne
  have hc : isDigitOf 10 c = true := hall c List.mem_cons_self
  cases sign with
  | none =>
    have hplus : c ≠ '+' := by rintro rfl; cases hc
    have hminus : c ≠ '-' := by rintro rfl; cases hc
    simp only [List.cons_append] at htake hdrop
    simp [ExponentText.text, ExponentText.token, scanExponent?, hmark, hplus, hminus, htake, hdrop]
  | some s =>
    simp only [List.cons_append] at htake hdrop
    rcases hsign s rfl with rfl | rfl
    · simp [ExponentText.text, ExponentText.token, scanExponent?, hmark, htake, hdrop]
    · simp [ExponentText.text, ExponentText.token, scanExponent?, hmark, htake, hdrop]

/-- A sign at the start of a text, and the text behind it. -/
theorem exists_sign (cs : List Char) :
    ∃ sign : Option Char, (∀ c ∈ sign, c = '+' ∨ c = '-') ∧
      (sign == some '-') = (cs.head? == some '-') ∧
      cs = sign.toList ++ (if cs.head? == some '+' || cs.head? == some '-' then cs.tail else cs) := by
  cases cs with
  | nil => exact ⟨none, by simp, rfl, rfl⟩
  | cons c cs =>
    by_cases hplus : c = '+'
    · exact ⟨some '+', by simp, by simp [hplus], by simp [hplus]⟩
    by_cases hminus : c = '-'
    · exact ⟨some '-', by simp, by simp [hminus], by simp [hminus]⟩
    exact ⟨none, by simp, by simp [hminus], by simp [hplus, hminus]⟩

theorem exists_of_scanExponent? {x : Option Exponent} (h : scanExponent? cs = some (x, rest)) :
    ∃ e : Option ExponentText, cs = exponentText e ++ rest ∧ x = e.map (·.token) := by
  unfold scanExponent? at h
  split at h
  · cases h
    exact ⟨none, rfl, rfl⟩
  · next c cs =>
    split at h
    · next hmark =>
      dsimp only at h
      rw [Option.ite_none_left_eq_some] at h
      obtain ⟨hne, h⟩ := h
      cases h
      obtain ⟨sign, hsign, hnegative, hcs⟩ := exists_sign cs
      set unsigned := if cs.head? == some '+' || cs.head? == some '-' then cs.tail else cs
      have hdigits : ∀ c ∈ unsigned.takeWhile (isDigitOf 10), ∃ d, IsDigit 10 c d :=
        forall_isDigitOf_iff.mp fun c hc => List.all_eq_true.mp List.all_takeWhile c hc
      refine ⟨some ⟨c, sign, _, hmark, hsign, hne, hdigits⟩, ?_, ?_⟩
      · show c :: cs = c :: (sign.toList ++ unsigned.takeWhile (isDigitOf 10)) ++ _
        rw [List.cons_append, List.append_assoc, List.takeWhile_append_dropWhile, ← hcs]
      · simp [ExponentText.token, hnegative]
    · cases h
      exact ⟨none, rfl, rfl⟩

/-- What comes behind the digits: perhaps an exponent, perhaps a letter. -/
theorem scanFloatEnd?_eq_some_iff {whole fraction : List Char} {point : Bool} {t : Token} :
    scanFloatEnd? whole fraction point cs = some t ↔
      ∃ (e : Option ExponentText) (suffix : Option Char), (∀ c ∈ suffix, isFloatSuffix c = true) ∧
        (point = true ∨ e.isSome ∨ suffix.isSome) ∧ cs = exponentText e ++ suffix.toList ∧
        t = .float ⟨whole, fraction, e.map (·.token)⟩ := by
  constructor
  · intro h
    unfold scanFloatEnd? at h
    split at h
    · next x rest hx =>
      rw [Option.ite_none_right_eq_some] at h
      obtain ⟨hrest, ht⟩ := h
      obtain ⟨e, rfl, rfl⟩ := exists_of_scanExponent? hx
      rcases hrest with ⟨rfl, hpoint⟩ | ⟨hlength, hsuffix⟩
      · refine ⟨e, none, by simp, ?_, rfl, (Option.some.inj ht).symm⟩
        simpa using hpoint
      · obtain ⟨c, rfl⟩ := List.length_eq_one_iff.mp hlength
        exact ⟨e, some c, by simpa using hsuffix, by simp, rfl, (Option.some.inj ht).symm⟩
    · cases h
  · rintro ⟨e, suffix, hsuffix, hsome, rfl, rfl⟩
    have hscan : scanExponent? (exponentText e ++ suffix.toList) =
        some (e.map (·.token), suffix.toList) := by
      cases e with
      | some e =>
        refine scanExponent?_text e fun c hc => isDigitOf_of_isFloatSuffix (hsuffix c ?_)
        simpa using hc
      | none =>
        cases suffix with
        | none => rfl
        | some c =>
          have hc := hsuffix c rfl
          have he : ¬ (c = 'e' ∨ c = 'E') := by
            rintro (rfl | rfl)
            · cases hc
            · cases hc
          show scanExponent? [c] = _
          simp only [scanExponent?, if_neg he]
          rfl
    unfold scanFloatEnd?
    rw [hscan]
    dsimp only
    rw [if_pos]
    cases suffix with
    | none => exact .inl ⟨rfl, by simpa using hsome⟩
    | some c => exact .inr ⟨rfl, by simpa using hsuffix c rfl⟩

end Exponents

/-! ## Floating-point numbers -/

/-- Digits and underscores, perhaps with a point among them, perhaps an exponent, and perhaps a
letter at the end. The first of the digits is no underscore. Without a point there is an exponent
or a letter. -/
structure FloatText where
  whole : List Char
  fraction : Option (List Char)
  exponent : Option ExponentText
  suffix : Option Char
  isDigits : IsDigits 10 (whole ++ fraction.getD [])
  head : ∃ c ∈ (whole ++ fraction.getD []).head?, ∃ d, IsDigit 10 c d
  isSuffix : ∀ c ∈ suffix, isFloatSuffix c = true
  isMarked : fraction.isSome ∨ exponent.isSome ∨ suffix.isSome

/-- The text of the digits behind a point, if there is one. -/
def fractionText (fraction : Option (List Char)) : List Char :=
  fraction.elim [] ('.' :: ·)

namespace FloatText

def text (f : FloatText) : List Char :=
  f.whole ++ fractionText f.fraction ++ exponentText f.exponent ++ f.suffix.toList

def token (f : FloatText) : FloatToken :=
  ⟨f.whole, f.fraction.getD [], f.exponent.map (·.token)⟩

end FloatText

theorem isDigits_append {radix : Nat} {front rest : List Char} :
    IsDigits radix (front ++ rest) ↔ IsDigits radix front ∧ IsDigits radix rest :=
  List.forall_mem_append

/-- Behind the digits comes a mark other than the point. -/
theorem head?_floatEnd {e : Option ExponentText} {suffix : Option Char}
    (hsuffix : ∀ c ∈ suffix, isFloatSuffix c = true) :
    ∀ c ∈ (exponentText e ++ suffix.toList).head?, isFloatMark c = true ∧ c ≠ '.' := by
  intro c hc
  cases e with
  | some e =>
    obtain rfl : e.mark = c := by simpa [exponentText, ExponentText.text] using hc
    rcases e.isMark with h | h <;> rw [h] <;> decide
  | none =>
    cases suffix with
    | none => cases hc
    | some s =>
      obtain rfl : s = c := by simpa [exponentText] using hc
      have hs := hsuffix s rfl
      refine ⟨by simp [isFloatMark, hs], ?_⟩
      rintro rfl
      cases hs

section Scanner

variable {cs : List Char} {t : Token}

theorem any_isDigitOf_iff {o : Option Char} :
    o.any (isDigitOf 10) = true ↔ ∃ c ∈ o, ∃ d, IsDigit 10 c d := by
  simp [Option.any_eq_true, isDigitOf_iff]

theorem scanFloat?_text (f : FloatText) : scanFloat? f.text = some (.float f.token) := by
  obtain ⟨whole, fraction, e, suffix, hdigits, hhead, hsuffix, hmarked⟩ := f
  obtain ⟨hwhole, hfraction⟩ := isDigits_append.mp hdigits
  rw [← forall_isDigitOrUnderscore_iff] at hwhole hfraction
  rw [← any_isDigitOf_iff] at hhead
  have hend := head?_floatEnd (e := e) hsuffix
  have hstop : ∀ c ∈ (exponentText e ++ suffix.toList).head?, isDigitOrUnderscore 10 c = false :=
    fun c hc => isDigitOrUnderscore_of_isFloatMark (hend c hc).1
  have hscan : ∀ point fraction, (point = true ∨ e.isSome ∨ suffix.isSome) →
      scanFloatEnd? whole fraction point (exponentText e ++ suffix.toList) =
        some (.float ⟨whole, fraction, e.map (·.token)⟩) := by
    intro point fraction hsome
    exact scanFloatEnd?_eq_some_iff.mpr ⟨e, suffix, hsuffix, hsome, rfl, rfl⟩
  cases fraction with
  | none =>
    rw [Option.getD_none, List.append_nil] at hhead
    show scanFloat? (whole ++ [] ++ exponentText e ++ suffix.toList) = _
    rw [List.append_nil, List.append_assoc]
    unfold scanFloat?
    rw [takeWhile_append_stop hwhole hstop, dropWhile_append_stop hwhole hstop]
    dsimp only
    split
    · next after hafter =>
      rw [hafter] at hend
      exact absurd rfl (hend '.' rfl).2
    · rw [if_pos hhead]
      exact hscan false [] (by simpa using hmarked)
  | some fraction =>
    rw [Option.getD_some] at hhead hfraction
    have hpoint : ∀ c ∈ ('.' :: (fraction ++ (exponentText e ++ suffix.toList))).head?,
        isDigitOrUnderscore 10 c = false := by
      intro c hc
      cases hc
      rfl
    have hfirst : (if whole = [] then fraction else whole).head?.any (isDigitOf 10) = true := by
      by_cases hnil : whole = []
      · rw [if_pos hnil]
        simpa [hnil] using hhead
      · obtain ⟨c, more, rfl⟩ := List.exists_cons_of_ne_nil hnil
        rw [if_neg hnil]
        exact hhead
    show scanFloat? (whole ++ '.' :: fraction ++ exponentText e ++ suffix.toList) = _
    rw [List.append_assoc, List.append_assoc, List.cons_append]
    unfold scanFloat?
    rw [takeWhile_append_stop hwhole hpoint, dropWhile_append_stop hwhole hpoint]
    dsimp only
    split
    · next after hafter =>
      cases hafter
      rw [takeWhile_append_stop hfraction hstop, dropWhile_append_stop hfraction hstop,
        if_pos hfirst]
      exact hscan true fraction (.inl rfl)
    · next hnone => exact absurd rfl (hnone _)

theorem exists_floatText_of_scanFloat? (h : scanFloat? cs = some t) :
    ∃ f : FloatText, f.text = cs ∧ t = .float f.token := by
  have hsplit := List.takeWhile_append_dropWhile (p := isDigitOrUnderscore 10) (l := cs)
  have hwhole : IsDigits 10 (cs.takeWhile (isDigitOrUnderscore 10)) :=
    forall_isDigitOrUnderscore_iff.mp fun c hc => List.all_eq_true.mp List.all_takeWhile c hc
  unfold scanFloat? at h
  dsimp only at h
  generalize cs.takeWhile (isDigitOrUnderscore 10) = whole at h hsplit hwhole
  split at h
  · next after hafter =>
    rw [hafter] at hsplit
    have hfraction : IsDigits 10 (after.takeWhile (isDigitOrUnderscore 10)) :=
      forall_isDigitOrUnderscore_iff.mp fun c hc => List.all_eq_true.mp List.all_takeWhile c hc
    have hsplit' := List.takeWhile_append_dropWhile (p := isDigitOrUnderscore 10) (l := after)
    generalize after.takeWhile (isDigitOrUnderscore 10) = fraction at h hsplit' hfraction
    rw [Option.ite_none_right_eq_some] at h
    obtain ⟨hfirst, hend⟩ := h
    obtain ⟨e, suffix, hsuffix, -, hrest, rfl⟩ := scanFloatEnd?_eq_some_iff.mp hend
    have hhead : ((whole ++ fraction).head?).any (isDigitOf 10) = true := by
      cases whole with
      | nil => simpa using hfirst
      | cons c whole => simpa using hfirst
    refine ⟨⟨whole, some fraction, e, suffix, isDigits_append.mpr ⟨hwhole, hfraction⟩,
      any_isDigitOf_iff.mp hhead, hsuffix, .inl rfl⟩, ?_, rfl⟩
    rw [← hsplit, ← hsplit', hrest]
    simp [FloatText.text, fractionText]
  · rw [Option.ite_none_right_eq_some] at h
    obtain ⟨hfirst, hend⟩ := h
    obtain ⟨e, suffix, hsuffix, hsome, hrest, rfl⟩ := scanFloatEnd?_eq_some_iff.mp hend
    refine ⟨⟨whole, none, e, suffix, by simpa using hwhole, any_isDigitOf_iff.mp (by simpa using hfirst),
      hsuffix, by simpa using hsome⟩, ?_, rfl⟩
    rw [← hsplit, hrest]
    simp [FloatText.text, fractionText]

/-- The scanner accepts the texts of floating-point numbers, and finds their parts. -/
theorem scanFloat?_eq_some_iff :
    scanFloat? cs = some t ↔ ∃ f : FloatText, f.text = cs ∧ t = .float f.token := by
  constructor
  · exact exists_floatText_of_scanFloat?
  · rintro ⟨f, rfl, rfl⟩
    exact scanFloat?_text f

end Scanner

/-! ## Characters of the parts -/

namespace FloatText

variable (f : FloatText)

theorem mem_body {c : Char}
    (hc : c ∈ f.whole ++ fractionText f.fraction ++ exponentText f.exponent) :
    (c = '_' ∨ ∃ d, IsDigit 10 c d) ∨ c = '.' ∨
      (c = 'e' ∨ c = 'E') ∨ (c = '+' ∨ c = '-') ∨ ∃ d, IsDigit 10 c d := by
  obtain ⟨hwhole, hfraction⟩ := isDigits_append.mp f.isDigits
  rw [List.mem_append, List.mem_append] at hc
  rcases hc with (hc | hc) | hc
  · exact .inl (hwhole c hc)
  · cases hf : f.fraction with
    | none =>
      rw [hf] at hc
      cases hc
    | some fraction =>
      rw [hf] at hc hfraction
      rcases List.mem_cons.mp hc with rfl | hc
      · exact .inr (.inl rfl)
      · exact .inl (hfraction c hc)
  · cases he : f.exponent with
    | none =>
      rw [he] at hc
      cases hc
    | some e =>
      rw [he] at hc
      exact .inr (.inr (e.mem_text hc))

theorem exists_isFloatMark : ∃ c ∈ f.text, isFloatMark c := by
  rcases f.isMarked with h | h | h
  · obtain ⟨fraction, hf⟩ := Option.isSome_iff_exists.mp h
    exact ⟨'.', by simp [text, hf, fractionText], rfl⟩
  · obtain ⟨e, he⟩ := Option.isSome_iff_exists.mp h
    refine ⟨e.mark, by simp [text, he, exponentText, ExponentText.text], ?_⟩
    rcases e.isMark with hmark | hmark <;> rw [hmark] <;> rfl
  · obtain ⟨c, hc⟩ := Option.isSome_iff_exists.mp h
    exact ⟨c, by simp [text, hc], by simp [isFloatMark, f.isSuffix c hc]⟩

theorem head?_text : ∃ c, f.text.head? = some c ∧ (isDigitOf 10 c ∨ c = '.') := by
  obtain ⟨c, hc, hd⟩ := f.head
  cases hwhole : f.whole with
  | cons _ more =>
    rw [hwhole] at hc
    cases hc
    exact ⟨c, by simp [text, hwhole], .inl (isDigitOf_iff.mpr hd)⟩
  | nil =>
    -- the digit comes behind a point
    rw [hwhole, List.nil_append] at hc
    cases hf : f.fraction with
    | none =>
      rw [hf] at hc
      cases hc
    | some fraction => exact ⟨'.', by simp [text, hwhole, hf, fractionText], .inr rfl⟩

end FloatText

end SourceModel.Literal
