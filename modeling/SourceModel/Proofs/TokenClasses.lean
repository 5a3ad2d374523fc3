import SourceModel.Proofs.FloatLiterals

/-!
# Token classes

What the texts of a class look like, with the token that each of them gives. A text has at most one
class, which its first two characters tell, and for a decimal number and a floating-point one which
characters it has (`TokenClass.eq_only_of_scan?`). So a token is found if any class has the text,
whatever the order in which the classes are tried (`Token.scan?_eq_some_iff`).
-/

namespace SourceModel.Literal

/-! ## Whole numbers -/

/-- Nothing, or the letter of a long number. -/
def IsLongSuffix (cs : List Char) : Prop :=
  cs = [] ∨ cs = ['l'] ∨ cs = ['L']

section Integers

variable {radix : Nat} {cs digits suffix : List Char} {t : Token} {c : Char}

theorem all_isDigitOrUnderscore_iff :
    cs.all (isDigitOrUnderscore radix) = true ↔ IsDigits radix cs := by
  simp [IsDigits, isDigitOrUnderscore_iff]

/-- A letter that is no digit at all is not among digits and underscores. -/
theorem IsDigits.not_mem (h : IsDigits radix cs) (hc : digitValue? c = none) (hc' : c ≠ '_') :
    c ∉ cs := by
  intro hmem
  rcases h c hmem with rfl | ⟨d, hd⟩
  · exact hc' rfl
  · rw [(isDigit_iff.mp hd).1] at hc
    cases hc

theorem exists_eq_dropLongSuffix_append (cs : List Char) :
    ∃ suffix, IsLongSuffix suffix ∧ cs = dropLongSuffix cs ++ suffix := by
  rcases List.eq_nil_or_concat cs with rfl | ⟨front, last, rfl⟩
  · exact ⟨[], .inl rfl, rfl⟩
  · simp only [dropLongSuffix, List.concat_eq_append, List.getLast?_concat, List.dropLast_concat]
    split
    · next hlast =>
      refine ⟨[last], .inr ?_, rfl⟩
      rcases hlast with rfl | rfl
      · exact .inl rfl
      · exact .inr rfl
    · exact ⟨[], .inl rfl, (List.append_nil _).symm⟩

theorem dropLongSuffix_append (hdigits : IsDigits radix digits) (hs : IsLongSuffix suffix) :
    dropLongSuffix (digits ++ suffix) = digits := by
  rcases hs with rfl | rfl | rfl
  · rw [List.append_nil]
    rcases List.eq_nil_or_concat digits with rfl | ⟨front, last, rfl⟩
    · rfl
    · have hl := hdigits.not_mem (c := 'l') rfl (by decide)
      have hL := hdigits.not_mem (c := 'L') rfl (by decide)
      simp only [List.concat_eq_append, List.mem_append, List.mem_singleton, not_or] at hl hL
      simp [dropLongSuffix, Ne.symm hl.2, Ne.symm hL.2]
  · simp [dropLongSuffix]
  · simp [dropLongSuffix]

theorem scanMarked?_eq_some_iff {lower upper : Char} :
    scanMarked? lower upper radix cs = some t ↔ ∃ mark digits suffix,
      (mark = lower ∨ mark = upper) ∧ digits ≠ [] ∧ IsDigits radix digits ∧ IsLongSuffix suffix ∧
      cs = '0' :: mark :: (digits ++ suffix) ∧ t = .integer radix digits := by
  constructor
  · intro h
    unfold scanMarked? at h
    split at h
    · next mark cs =>
      rw [Option.ite_none_right_eq_some, all_isDigitOrUnderscore_iff] at h
      obtain ⟨⟨hmark, hne, hdigits⟩, ht⟩ := h
      obtain ⟨suffix, hsuffix, hcs⟩ := exists_eq_dropLongSuffix_append cs
      exact ⟨mark, dropLongSuffix cs, suffix, hmark, hne, hdigits, hsuffix, by rw [← hcs],
        (Option.some.inj ht).symm⟩
    · cases h
  · rintro ⟨mark, digits, suffix, hmark, hne, hdigits, hsuffix, rfl, rfl⟩
    have hdrop := dropLongSuffix_append hdigits hsuffix
    show (if (mark = lower ∨ mark = upper) ∧ dropLongSuffix (digits ++ suffix) ≠ [] ∧
      (dropLongSuffix (digits ++ suffix)).all (isDigitOrUnderscore radix) then
        some (Token.integer radix (dropLongSuffix (digits ++ suffix))) else none) = _
    rw [hdrop, if_pos ⟨hmark, hne, all_isDigitOrUnderscore_iff.mpr hdigits⟩]

theorem scanUnmarked?_eq_some_iff :
    scanUnmarked? cs = some t ↔ ∃ first d digits suffix,
      IsDigit 10 first d ∧ IsDigits 10 digits ∧ IsLongSuffix suffix ∧
      cs = first :: (digits ++ suffix) ∧
      t = if first = '0' ∧ digits ≠ [] then .integer 8 digits else .integer 10 (first :: digits) := by
  constructor
  · intro h
    obtain ⟨suffix, hsuffix, hcs⟩ := exists_eq_dropLongSuffix_append cs
    unfold scanUnmarked? at h
    split at h
    · cases h
    · next first digits heq =>
      rw [Option.ite_none_right_eq_some, all_isDigitOrUnderscore_iff, isDigitOf_iff] at h
      obtain ⟨⟨⟨d, hd⟩, hdigits⟩, ht⟩ := h
      refine ⟨first, d, digits, suffix, hd, hdigits, hsuffix, hcs.trans (by rw [heq]; rfl), ?_⟩
      rw [← apply_ite some] at ht
      exact (Option.some.inj ht).symm
  · rintro ⟨first, d, digits, suffix, hd, hdigits, hsuffix, rfl, rfl⟩
    have hall : IsDigits 10 (first :: digits) := by
      intro c hc
      rcases List.mem_cons.mp hc with rfl | hc
      · exact .inr ⟨d, hd⟩
      · exact hdigits c hc
    have hdrop := dropLongSuffix_append hall hsuffix
    rw [List.cons_append] at hdrop
    unfold scanUnmarked?
    rw [hdrop]
    dsimp only
    rw [if_pos ⟨isDigitOf_iff.mpr ⟨d, hd⟩, all_isDigitOrUnderscore_iff.mpr hdigits⟩, apply_ite some]

end Integers

/-! ## Quoted text -/

/-- What may stand between quotes: characters other than the quote, the backslash and the line
break, and backslashes with the character after them, which is no line break either. -/
inductive QuotedBody (quote : Char) : List Char → Prop
  | nil : QuotedBody quote []
  | plain {c : Char} {cs : List Char} :
      c ≠ quote → c ≠ '\\' → c ≠ '\n' → QuotedBody quote cs → QuotedBody quote (c :: cs)
  | escaped {c : Char} {cs : List Char} :
      c ≠ '\n' → QuotedBody quote cs → QuotedBody quote ('\\' :: c :: cs)

theorem quotedBody_of_bodyBefore? {quote : Char} {cs body : List Char}
    (h : bodyBefore? quote cs = some body) : cs = body ++ [quote] ∧ QuotedBody quote body := by
  fun_induction bodyBefore? quote cs generalizing body with
  | case1 => cases h
  | case2 => cases h
  | case3 c cs hc ih =>
    obtain ⟨rest, hrest, rfl⟩ := Option.map_eq_some_iff.mp h
    obtain ⟨rfl, hbody⟩ := ih hrest
    exact ⟨rfl, .escaped hc hbody⟩
  | case4 =>
    cases h
    exact ⟨rfl, .nil⟩
  | case5 => cases h
  | case6 => cases h
  | case7 c cs _ hquote hc ih =>
    rw [not_or] at hc
    obtain ⟨rest, hrest, rfl⟩ := Option.map_eq_some_iff.mp h
    obtain ⟨rfl, hbody⟩ := ih hrest
    exact ⟨rfl, .plain hquote hc.1 hc.2 hbody⟩

theorem bodyBefore?_append {quote : Char} (hquote : quote ≠ '\\') {body : List Char}
    (h : QuotedBody quote body) : bodyBefore? quote (body ++ [quote]) = some body := by
  induction h with
  | nil => simp [bodyBefore?]
  | plain hc hslash hbreak _ ih => simp [bodyBefore?, hc, hslash, hbreak, ih]
  | escaped hc _ ih => simp [bodyBefore?, hc, ih]

theorem scanString?_eq_some_iff {cs : List Char} {t : Token} :
    scanString? cs = some t ↔
      ∃ body, cs = '"' :: (body ++ ['"']) ∧ QuotedBody '"' body ∧ t = .string body := by
  constructor
  · intro h
    unfold scanString? at h
    split at h
    · obtain ⟨body, hbody, rfl⟩ := Option.map_eq_some_iff.mp h
      obtain ⟨rfl, hquoted⟩ := quotedBody_of_bodyBefore? hbody
      exact ⟨body, rfl, hquoted, rfl⟩
    · cases h
  · rintro ⟨body, rfl, hbody, rfl⟩
    rw [scanString?, bodyBefore?_append (by decide) hbody]
    rfl

theorem scanChar?_eq_some_iff {cs : List Char} {t : Token} :
    scanChar? cs = some t ↔
      ∃ body, body ≠ [] ∧ cs = '\'' :: (body ++ ['\'']) ∧ QuotedBody '\'' body ∧ t = .char body := by
  constructor
  · intro h
    unfold scanChar? at h
    split at h
    · split at h
      · cases h
      · next hempty =>
        obtain ⟨body, hbody, rfl⟩ := Option.map_eq_some_iff.mp h
        have hne : body ≠ [] := by
          rintro rfl
          exact hempty hbody
        obtain ⟨rfl, hquoted⟩ := quotedBody_of_bodyBefore? hbody
        exact ⟨body, hne, rfl, hquoted, rfl⟩
    · cases h
  · rintro ⟨body, hne, rfl, hbody, rfl⟩
    rw [scanChar?, bodyBefore?_append (by decide) hbody]
    cases body with
    | nil => exact absurd rfl hne
    | cons c body => rfl

/-! ## Floating point -/

/-- The characters of a floating-point number. -/
def isFloatChar (c : Char) : Bool :=
  isDigitOrUnderscore 10 c || isFloatMark c || c == '+' || c == '-'

section Float

variable {cs : List Char} {t : Token}

theorem isFloatChar_of_isDigitOrUnderscore {c : Char} (h : isDigitOrUnderscore 10 c) :
    isFloatChar c := by
  simp [isFloatChar, h]

theorem isFloatChar_of_isFloatMark {c : Char} (h : isFloatMark c) : isFloatChar c := by
  simp [isFloatChar, h]

theorem FloatText.isFloatChar_of_mem (f : FloatText) {c : Char} (hc : c ∈ f.text) :
    isFloatChar c := by
  rcases List.mem_append.mp hc with hbody | hsuffix
  · rcases f.mem_body hbody with hdigit | rfl | (rfl | rfl) | (rfl | rfl) | hdigit
    · exact isFloatChar_of_isDigitOrUnderscore (isDigitOrUnderscore_iff.mpr hdigit)
    · rfl
    · rfl
    · rfl
    · rfl
    · rfl
    · exact isFloatChar_of_isDigitOrUnderscore (isDigitOrUnderscore_iff.mpr (.inr hdigit))
  · have hc := f.isSuffix c (Option.mem_toList.mp hsuffix)
    exact isFloatChar_of_isFloatMark (by simp [isFloatMark, hc])

theorem scanFloat?_chars (h : scanFloat? cs = some t) :
    (∃ token, t = .float token) ∧ (∀ c ∈ cs, isFloatChar c) ∧ (∃ c ∈ cs, isFloatMark c) ∧
      ∃ c, cs.head? = some c ∧ (isDigitOf 10 c ∨ c = '.') := by
  obtain ⟨f, rfl, rfl⟩ := scanFloat?_eq_some_iff.mp h
  exact ⟨⟨f.token, rfl⟩, fun c hc => f.isFloatChar_of_mem hc, f.exists_isFloatMark, f.head?_text⟩

end Float

/-! ## The only class -/

namespace TokenClass

/-- The only class that the text may have. -/
def only (cs : List Char) : TokenClass :=
  if cs.head? = some 't' then .trueWord
  else if cs.head? = some 'f' then .falseWord
  else if cs.head? = some 'n' then .nullWord
  else if cs.head? = some '"' then .string
  else if cs.head? = some '\'' then .char
  else if cs[1]? = some 'x' ∨ cs[1]? = some 'X' then .hex
  else if cs[1]? = some 'b' ∨ cs[1]? = some 'B' then .binary
  else if cs.any isFloatMark then .float
  else .decimal

/-- A number without a mark after a leading zero is told by the marks of floating point. -/
theorem only_of_unmarked {cs : List Char} {first : Char} (hhead : cs.head? = some first)
    (hfirst : isDigitOf 10 first ∨ first = '.')
    (hchars : ∀ c ∈ cs, isFloatChar c ∨ c = 'l' ∨ c = 'L') :
    only cs = if cs.any isFloatMark then .float else .decimal := by
  have hne : ∀ c, isDigitOf 10 c = false → c ≠ '.' → cs.head? ≠ some c := by
    intro c hc hpoint heq
    rw [hhead, Option.some.injEq] at heq
    subst heq
    simp [hc, hpoint] at hfirst
  have hsecond : ∀ c, isFloatChar c = false → c ≠ 'l' → c ≠ 'L' → cs[1]? ≠ some c := by
    intro c hc hl hL heq
    have := hchars c (List.mem_of_getElem? heq)
    simp [hc, hl, hL] at this
  unfold only
  rw [if_neg (hne 't' rfl (by decide)), if_neg (hne 'f' rfl (by decide)),
    if_neg (hne 'n' rfl (by decide)), if_neg (hne '"' rfl (by decide)),
    if_neg (hne '\'' rfl (by decide)),
    if_neg (not_or.mpr ⟨hsecond 'x' rfl (by decide) (by decide),
      hsecond 'X' rfl (by decide) (by decide)⟩),
    if_neg (not_or.mpr ⟨hsecond 'b' rfl (by decide) (by decide),
      hsecond 'B' rfl (by decide) (by decide)⟩)]

theorem eq_only_of_scan? {cls : TokenClass} {cs : List Char} {t : Token}
    (h : cls.scan? cs = some t) : cls = only cs := by
  cases cls with
  | trueWord =>
    obtain ⟨rfl, -⟩ := Option.ite_none_right_eq_some.mp h
    decide
  | falseWord =>
    obtain ⟨rfl, -⟩ := Option.ite_none_right_eq_some.mp h
    decide
  | nullWord =>
    obtain ⟨rfl, -⟩ := Option.ite_none_right_eq_some.mp h
    decide
  | hex =>
    obtain ⟨mark, digits, suffix, hmark, -, -, -, rfl, -⟩ := scanMarked?_eq_some_iff.mp h
    rcases hmark with rfl | rfl <;> rfl
  | binary =>
    obtain ⟨mark, digits, suffix, hmark, -, -, -, rfl, -⟩ := scanMarked?_eq_some_iff.mp h
    rcases hmark with rfl | rfl <;> rfl
  | decimal =>
    obtain ⟨first, d, digits, suffix, hd, hdigits, hsuffix, rfl, -⟩ :=
      scanUnmarked?_eq_some_iff.mp h
    have hchars : ∀ c ∈ first :: (digits ++ suffix),
        isDigitOrUnderscore 10 c ∨ c = 'l' ∨ c = 'L' := by
      rw [List.forall_mem_cons, List.forall_mem_append]
      refine ⟨.inl (isDigitOrUnderscore_iff.mpr (.inr ⟨d, hd⟩)),
        fun c hc => .inl (isDigitOrUnderscore_iff.mpr (hdigits c hc)), ?_⟩
      rcases hsuffix with rfl | rfl | rfl <;> simp
    have hmark : (first :: (digits ++ suffix)).any isFloatMark = false :=
      List.any_eq_false.mpr fun c hc => Bool.eq_false_iff.mp (not_isFloatMark (hchars c hc))
    rw [only_of_unmarked rfl (.inl (isDigitOf_iff.mpr ⟨d, hd⟩)) fun c hc =>
      (hchars c hc).imp_left isFloatChar_of_isDigitOrUnderscore, hmark]
    rfl
  | float =>
    obtain ⟨-, hchars, hmark, c, hhead, hc⟩ := scanFloat?_chars h
    rw [only_of_unmarked hhead hc fun c hc => .inl (hchars c hc), List.any_eq_true.mpr hmark]
    rfl
  | string =>
    obtain ⟨body, rfl, -⟩ := scanString?_eq_some_iff.mp h
    rfl
  | char =>
    obtain ⟨body, -, rfl, -⟩ := scanChar?_eq_some_iff.mp h
    rfl

/-- The class is one whose texts give such tokens. -/
def Gives (cls : TokenClass) : Token → Prop
  | .bool value => cls = if value then .trueWord else .falseWord
  | .null => cls = .nullWord
  | .integer _ _ => cls = .hex ∨ cls = .binary ∨ cls = .decimal
  | .float _ => cls = .float
  | .string _ => cls = .string
  | .char _ => cls = .char

theorem gives_of_scan? {cls : TokenClass} {cs : List Char} {t : Token}
    (h : cls.scan? cs = some t) : cls.Gives t := by
  cases cls with
  | trueWord =>
    obtain ⟨-, ht⟩ := Option.ite_none_right_eq_some.mp h
    cases ht
    rfl
  | falseWord =>
    obtain ⟨-, ht⟩ := Option.ite_none_right_eq_some.mp h
    cases ht
    rfl
  | nullWord =>
    obtain ⟨-, ht⟩ := Option.ite_none_right_eq_some.mp h
    cases ht
    rfl
  | hex =>
    obtain ⟨_, _, _, -, -, -, -, -, rfl⟩ := scanMarked?_eq_some_iff.mp h
    exact .inl rfl
  | binary =>
    obtain ⟨_, _, _, -, -, -, -, -, rfl⟩ := scanMarked?_eq_some_iff.mp h
    exact .inr (.inl rfl)
  | decimal =>
    obtain ⟨_, _, _, _, -, -, -, -, rfl⟩ := scanUnmarked?_eq_some_iff.mp h
    split <;> exact .inr (.inr rfl)
  | float =>
    obtain ⟨⟨_, rfl⟩, -⟩ := scanFloat?_chars h
    rfl
  | string =>
    obtain ⟨_, -, -, rfl⟩ := scanString?_eq_some_iff.mp h
    rfl
  | char =>
    obtain ⟨_, -, -, -, rfl⟩ := scanChar?_eq_some_iff.mp h
    rfl

end TokenClass

/-- In whichever order the classes are tried, the token is that of the class which has the text. -/
theorem findSome?_scan?_eq_some_iff {order : List TokenClass} (horder : ∀ cls, cls ∈ order)
    {cs : List Char} {t : Token} :
    order.findSome? (·.scan? cs) = some t ↔ ∃ cls : TokenClass, cls.scan? cs = some t := by
  constructor
  · intro h
    obtain ⟨cls, -, hcls⟩ := List.exists_of_findSome?_eq_some h
    exact ⟨cls, hcls⟩
  · rintro ⟨cls, hcls⟩
    cases hfound : order.findSome? (·.scan? cs) with
    | none =>
      have hnone := List.findSome?_eq_none_iff.mp hfound cls (horder cls)
      rw [hcls] at hnone
      cases hnone
    | some other =>
      -- the class found first is the only one, and so the given one
      obtain ⟨cls', -, hcls'⟩ := List.exists_of_findSome?_eq_some hfound
      rw [TokenClass.eq_only_of_scan? hcls', ← TokenClass.eq_only_of_scan? hcls, hcls] at hcls'
      exact hcls'.symm

theorem Token.scan?_eq_some_iff {cs : List Char} {t : Token} :
    Token.scan? cs = some t ↔ ∃ cls : TokenClass, cls.scan? cs = some t :=
  findSome?_scan?_eq_some_iff TokenClass.mem_all

/-! ## Values -/

/-- The token is of the kind from which such literals are read. -/
def Token.Makes (t : Token) : Literal → Prop
  | .string _ => ∃ body, t = .string body
  | .char _ => ∃ body, t = .char body
  | .int _ => ∃ radix digits, t = .integer radix digits
  | .float _ => ∃ token, t = .float token
  | .bool value => t = .bool value
  | .null => t = .null

theorem exists_int_of_integerValue {radix : Nat} {digits : List Char} {l : Literal}
    (h : integerValue radix digits = .ok l) : ∃ v, l = .int v := by
  unfold integerValue at h
  dsimp only at h
  split at h
  · cases h
  · split at h
    · split at h
      · cases h
        exact ⟨_, rfl⟩
      · cases h
    · cases h

theorem Token.value_string_eq_ok_iff {body : List Char} {l : Literal} :
    (Token.string body).value = .ok l ↔
      ∃ cs, unescape body = .ok cs ∧ l = .string (String.ofList cs) := by
  rw [value]
  cases unescape body <;> simp [Except.map, eq_comm]

theorem Token.value_char_eq_ok_iff {body : List Char} {l : Literal} :
    (Token.char body).value = .ok l ↔ ∃ c, unescape body = .ok [c] ∧ l = .char c := by
  rw [value]
  rcases unescape body with fault | (_ | ⟨c, _ | ⟨c', cs⟩⟩)
  · simp [bind, Except.bind]
  · simp [bind, Except.bind]
  · simp [bind, Except.bind, eq_comm]
  · simp [bind, Except.bind]

theorem Token.makes_of_value {t : Token} {l : Literal} (h : t.value = .ok l) : t.Makes l := by
  cases t with
  | bool value =>
    cases h
    rfl
  | null =>
    cases h
    rfl
  | integer radix digits =>
    obtain ⟨v, rfl⟩ := exists_int_of_integerValue h
    exact ⟨radix, digits, rfl⟩
  | float token =>
    cases h
    exact ⟨token, rfl⟩
  | string body =>
    obtain ⟨cs, -, rfl⟩ := value_string_eq_ok_iff.mp h
    exact ⟨body, rfl⟩
  | char body =>
    obtain ⟨c, -, rfl⟩ := value_char_eq_ok_iff.mp h
    exact ⟨body, rfl⟩

section Reading

variable {cs : List Char} {text : String} {l : Literal}

theorem valueOf_of_scan? (cls : TokenClass) {t : Token} (h : cls.scan? cs = some t) :
    valueOf cs = t.value := by
  rw [valueOf, Token.scan?_eq_some_iff.mpr ⟨cls, h⟩]

theorem valueOf_eq_ok_iff :
    valueOf cs = .ok l ↔ ∃ (cls : TokenClass) (t : Token), cls.scan? cs = some t ∧ t.value = .ok l := by
  constructor
  · intro h
    unfold valueOf at h
    split at h
    · next t ht =>
      obtain ⟨cls, hcls⟩ := Token.scan?_eq_some_iff.mp ht
      exact ⟨cls, t, hcls, h⟩
    · cases h
  · rintro ⟨cls, t, hcls, ht⟩
    rw [valueOf_of_scan? cls hcls, ht]

theorem read_eq_ok_iff : read text = .ok l ↔ valueOf (Text.trim text.toList) = .ok l := by
  unfold read
  dsimp only
  cases valueOf (Text.trim text.toList) <;> simp [Except.mapError]

theorem read_eq_error_iff {e : LiteralError} : read text = .error e ↔
    ∃ fault, valueOf (Text.trim text.toList) = .error fault ∧
      e = ⟨String.ofList (Text.trim text.toList), fault⟩ := by
  unfold read
  dsimp only
  cases valueOf (Text.trim text.toList) <;> simp [Except.mapError, eq_comm]

end Reading

end SourceModel.Literal
