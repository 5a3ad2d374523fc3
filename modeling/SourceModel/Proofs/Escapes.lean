import SourceModel.Proofs.TokenClasses

/-!
# Escapes

The text between quotes is made of pieces, and each piece stands for one character
(`Piece.Means`). An octal piece takes all the digits that it can (`Piece.Ends`), so no text is made
of pieces in two ways (`Spells.unique`). The characters that are read from a text are those of its
pieces (`unescape_eq_ok_iff`).
-/

namespace SourceModel.Literal

/-- A part of the text between quotes that stands for one character. -/
inductive Piece where
  | plain (c : Char)
  /-- A backslash and a letter or sign. -/
  | named (letter : Char)
  /-- A backslash, a letter `u` and perhaps further ones, and digits. -/
  | unicode (further : Nat) (digits : List Char)
  /-- A piece like the one before, with a plus sign before its digits. -/
  | signed (further : Nat) (digits : List Char)
  /-- A backslash and digits. -/
  | octal (digits : List Char)
deriving DecidableEq

namespace Piece

def text : Piece → List Char
  | .plain c => [c]
  | .named letter => ['\\', letter]
  | .unicode further digits => '\\' :: 'u' :: (List.replicate further 'u' ++ digits)
  | .signed further digits => '\\' :: 'u' :: (List.replicate further 'u' ++ '+' :: digits)
  | .octal digits => '\\' :: digits

/-- The letters and signs that name a character after a backslash. -/
def names : List (Char × Char) :=
  [('n', '\n'), ('t', '\t'), ('r', '\r'), ('b', '\x08'), ('f', '\x0c'), ('s', ' '), ('"', '"'),
    ('\'', '\''), ('\\', '\\')]

/-- At most three digits, and at most two if the first is above three. -/
def OctalLength (digits : List Char) : Prop :=
  digits.length ≤ 3 ∧ ∀ first ∈ digits.head?, '4' ≤ first → digits.length ≤ 2

/-- The piece stands for the character. -/
inductive Means : Piece → Char → Prop
  | plain {c : Char} : c ≠ '\\' → Means (.plain c) c
  | named {letter v : Char} : (letter, v) ∈ names → Means (.named letter) v
  | unicode {further : Nat} {digits : List Char} {v : Char} :
      digits.length = 4 → Writes 16 digits v.toNat → Means (.unicode further digits) v
  | signed {further : Nat} {digits : List Char} {v : Char} :
      digits.length = 3 → Writes 16 digits v.toNat → Means (.signed further digits) v
  | octal {digits : List Char} {v : Char} :
      OctalLength digits → Writes 8 digits v.toNat → Means (.octal digits) v

/-- The text goes on with a character that the piece cannot take. -/
def Ends (p : Piece) (rest : List Char) : Prop :=
  ∀ digits c v, p = .octal digits → rest.head? = some c → ¬ Means (.octal (digits ++ [c])) v

theorem plain_or_escape (p : Piece) : (∃ c, p = .plain c) ∨ ∃ cs, p.text = '\\' :: cs := by
  cases p with
  | plain c => exact .inl ⟨c, rfl⟩
  | named letter => exact .inr ⟨_, rfl⟩
  | unicode further digits => exact .inr ⟨_, rfl⟩
  | signed further digits => exact .inr ⟨_, rfl⟩
  | octal digits => exact .inr ⟨_, rfl⟩

end Piece

/-- The pieces, one after the other, are the text, and stand for the characters. -/
inductive Spells : List Piece → List Char → List Char → Prop
  | nil : Spells [] [] []
  | cons {p : Piece} {v : Char} {ps : List Piece} {rest vs : List Char} :
      p.Means v → p.Ends rest → Spells ps rest vs → Spells (p :: ps) (p.text ++ rest) (v :: vs)

/-! ## Code points -/

theorem scalar?_eq_some_iff {n : Nat} {v : Char} : scalar? n = some v ↔ v.toNat = n := by
  unfold scalar?
  constructor
  · intro h
    rw [Option.ite_none_right_eq_some] at h
    obtain ⟨hn, h⟩ := h
    cases h
    rw [Char.ofNat, dif_pos hn]
    rfl
  · rintro rfl
    have hv : v.toNat.isValidChar := v.valid
    rw [if_pos hv, Char.ofNat_toNat]

theorem codePoint?_eq_some_iff {four : List Char} {n : Nat} : codePoint? four = some n ↔
    (four.length = 4 ∧ Writes 16 four n) ∨
    ∃ three, four = '+' :: three ∧ three.length = 3 ∧ Writes 16 three n := by
  unfold codePoint?
  rw [Option.ite_none_right_eq_some]
  split
  · next digits =>
    have hplus : ¬ Writes 16 ('+' :: digits) n := by
      intro h
      obtain ⟨d, hd⟩ := h.exists_isDigit '+' List.mem_cons_self
      cases (isDigit_iff.mp hd).1
    have hne : digits.length = 3 → digits ≠ [] := by
      rintro h rfl
      cases h
    constructor
    · rintro ⟨hlength, h⟩
      have hlength : digits.length = 3 := by simpa using hlength
      exact .inr ⟨digits, rfl, hlength, (number?_eq_some_iff (hne hlength)).mp h⟩
    · rintro (⟨-, h⟩ | ⟨three, heq, hlength, h⟩)
      · exact absurd h hplus
      · cases heq
        exact ⟨by rw [List.length_cons, hlength], h.number?⟩
  · next hplus =>
    constructor
    · rintro ⟨hlength, h⟩
      refine .inl ⟨hlength, (number?_eq_some_iff ?_).mp h⟩
      rintro rfl
      cases hlength
    · rintro (⟨hlength, h⟩ | ⟨three, heq, -⟩)
      · exact ⟨hlength, h.number?⟩
      · exact absurd heq (hplus three)

theorem shape_of_codePoint? {four : List Char} {n : Nat} (h : codePoint? four = some n) :
    four.length = 4 ∧ ∀ rest, (four ++ rest).head? ≠ some 'u' := by
  rcases codePoint?_eq_some_iff.mp h with ⟨hlength, hwrites⟩ | ⟨three, rfl, hlength, -⟩
  · refine ⟨hlength, fun rest hu => ?_⟩
    rw [List.head?_append_of_ne_nil _ hwrites.ne_nil] at hu
    exact hwrites.head?_ne rfl hu
  · exact ⟨by rw [List.length_cons, hlength], fun rest => by simp⟩

theorem dropWhile_replicate_append (k : Nat) {cs : List Char} (h : cs.head? ≠ some 'u') :
    (List.replicate k 'u' ++ cs).dropWhile (· == 'u') = cs := by
  rw [List.dropWhile_append_of_pos]
  · cases cs with
    | nil => rfl
    | cons c cs =>
      have hc : c ≠ 'u' := by simpa using h
      simp [hc]
  · simp

/-! ## Octal digits -/

theorem takeWhile_take_append {p : Char → Bool} {more rest : List Char} {limit : Nat}
    (hmore : ∀ c ∈ more, p c) (hlength : more.length ≤ limit)
    (hrest : ∀ c, rest.head? = some c → p c → more.length = limit) :
    ((more ++ rest).take limit).takeWhile p = more := by
  induction more generalizing limit with
  | nil =>
    cases rest with
    | nil => simp
    | cons c rest =>
      cases limit with
      | zero => rfl
      | succ limit =>
        have hc : p c = false := by
          rw [Bool.eq_false_iff]
          intro hc
          have := hrest c rfl hc
          simp at this
        simp [hc]
  | cons m more ih =>
    cases limit with
    | zero => simp at hlength
    | succ limit =>
      simp only [List.length_cons] at hlength hrest
      have hm : p m := hmore m List.mem_cons_self
      simp only [List.cons_append, List.take_succ_cons, List.takeWhile_cons, hm, if_true]
      rw [ih (fun c hc => hmore c (List.mem_cons_of_mem m hc)) (by omega)]
      intro c hc hp
      have := hrest c hc hp
      omega

theorem length_eq_of_head?_drop {p : Char → Bool} {cs : List Char} {limit : Nat} {c : Char}
    (hc : (cs.drop ((cs.take limit).takeWhile p).length).head? = some c) (hp : p c) :
    ((cs.take limit).takeWhile p).length = limit := by
  induction cs generalizing limit with
  | nil => simp at hc
  | cons a cs ih =>
    cases limit with
    | zero => rfl
    | succ limit =>
      simp only [List.take_succ_cons, List.takeWhile_cons] at hc ⊢
      by_cases ha : p a
      · simp only [ha, if_true, List.length_cons, List.drop_succ_cons] at hc ⊢
        rw [ih hc]
      · simp [ha] at hc
        subst hc
        exact absurd hp ha

/-- How many digits may follow the first one. -/
theorem octalLength_cons_iff {c : Char} {more : List Char} :
    Piece.OctalLength (c :: more) ↔ more.length ≤ if c ≤ '3' then 2 else 1 := by
  have hfour : '4' ≤ c ↔ ¬ c ≤ '3' := by
    simp only [Char.le_def, UInt32.le_iff_toNat_le, Char.toNat_val, Char.reduceToNat]
    omega
  unfold Piece.OctalLength
  simp only [List.length_cons, List.head?_cons, Option.mem_some_iff, forall_eq', hfour]
  split
  · next h => simp only [h, not_true_eq_false, false_implies, and_true]; omega
  · next h => simp only [h, not_false_eq_true, true_implies]; omega

/-- Digits in octal stand for a character, since three of them are no surrogate yet. -/
theorem means_octal {digits : List Char} {n : Nat} (hlength : Piece.OctalLength digits)
    (hwrites : Writes 8 digits n) : (Piece.octal digits).Means (Char.ofNat n) := by
  have hlt : n < 8 ^ 3 :=
    Nat.lt_of_lt_of_le (hwrites.lt (by decide)) (Nat.pow_le_pow_right (by decide) hlength.1)
  have hn : (Char.ofNat n).toNat = n :=
    scalar?_eq_some_iff.mp (if_pos (.inl (Nat.lt_trans hlt (by decide))))
  exact .octal hlength (hn.symm ▸ hwrites)

/-! ## One escape -/

section Escape

variable {cs rest : List Char} {v : Char}

theorem ends_of_not_octal {p : Piece} (h : ∀ digits, p ≠ .octal digits) : p.Ends rest :=
  fun digits _ _ hp => absurd hp (h digits)

theorem namedEscape?_eq_some_iff {c : Char} : namedEscape? c = some v ↔ (c, v) ∈ Piece.names := by
  constructor
  · intro h
    unfold namedEscape? at h
    split at h <;> cases h <;> decide
  · have hnames : ∀ entry ∈ Piece.names, namedEscape? entry.1 = some entry.2 := by decide
    exact hnames (c, v)

theorem readEscape_named {c : Char} (h : (c, v) ∈ Piece.names) :
    readEscape (c :: cs) = .ok (v, cs) := by
  have hu : c ≠ 'u' := by
    rintro rfl
    simp [Piece.names] at h
  unfold readEscape
  split
  · next heq => cases heq
  · next heq =>
    cases heq
    exact absurd rfl hu
  · next heq =>
    cases heq
    rw [namedEscape?_eq_some_iff.mpr h]

theorem readEscape_unicode_eq_ok_iff : readEscape ('u' :: cs) = .ok (v, rest) ↔
    codePoint? ((cs.dropWhile (· == 'u')).take 4) = some v.toNat ∧
      (cs.dropWhile (· == 'u')).drop 4 = rest := by
  simp only [readEscape]
  cases codePoint? ((cs.dropWhile (· == 'u')).take 4) with
  | none => simp
  | some n =>
    rw [Option.bind_some, Option.some.injEq]
    cases hn : scalar? n with
    | none =>
      simp only [reduceCtorEq, false_iff, not_and]
      rintro rfl
      rw [scalar?_eq_some_iff.mpr rfl] at hn
      cases hn
    | some c =>
      obtain rfl := scalar?_eq_some_iff.mp hn
      simp only [Except.ok.injEq, Prod.mk.injEq, Char.toNat_inj]

theorem readEscape_unicode {further : Nat} {four : List Char}
    (h : codePoint? four = some v.toNat) :
    readEscape ('u' :: (List.replicate further 'u' ++ four) ++ rest) = .ok (v, rest) := by
  obtain ⟨hlength, hu⟩ := shape_of_codePoint? h
  rw [List.cons_append, List.append_assoc, readEscape_unicode_eq_ok_iff,
    dropWhile_replicate_append further (hu rest), List.take_left' hlength, List.drop_left' hlength]
  exact ⟨h, rfl⟩

theorem readEscape_digit {c : Char} {more : List Char} (hc : isDigitOf 8 c)
    (hmore : (cs.take (if c ≤ '3' then 2 else 1)).takeWhile (isDigitOf 8) = more) :
    readEscape (c :: cs) =
      .ok (Char.ofNat ((number? 8 (c :: more)).getD 0), cs.drop more.length) := by
  subst hmore
  obtain ⟨d, hlt, h⟩ := isDigitOf_iff.mp hc
  interval_cases d <;> rcases h with h | h <;> cases h <;> rfl

/-- The digits of an octal piece are those that are taken. -/
theorem takeWhile_eq_of_ends {c : Char} {more : List Char} (hlength : Piece.OctalLength (c :: more))
    (hwrites : Writes 8 (c :: more) v.toNat) (hends : (Piece.octal (c :: more)).Ends rest) :
    ((more ++ rest).take (if c ≤ '3' then 2 else 1)).takeWhile (isDigitOf 8) = more := by
  have hdigits := hwrites.exists_isDigit
  rw [octalLength_cons_iff] at hlength
  refine takeWhile_take_append ?_ hlength fun next hnext hdigit => ?_
  · exact fun c hc => isDigitOf_iff.mpr (hdigits c (List.mem_cons_of_mem _ hc))
  · -- with one digit more there would still be a character
    by_contra hne
    have hall : ∀ x ∈ c :: more ++ [next], ∃ d, IsDigit 8 x d := by
      rw [List.forall_mem_append, List.forall_mem_singleton]
      exact ⟨hdigits, isDigitOf_iff.mp hdigit⟩
    have hlonger : Piece.OctalLength (c :: more ++ [next]) := by
      rw [List.cons_append, octalLength_cons_iff, List.length_append, List.length_singleton]
      omega
    obtain ⟨n, hn⟩ := exists_writes (List.cons_ne_nil _ _) hall
    exact hends _ next _ rfl hnext (means_octal hlonger hn)

theorem readEscape_of_piece {p : Piece} (hmeans : p.Means v) (hends : p.Ends rest)
    (h : '\\' :: cs = p.text ++ rest) : readEscape cs = .ok (v, rest) := by
  cases hmeans with
  | plain hc =>
    cases h
    exact absurd rfl hc
  | named hname =>
    cases h
    exact readEscape_named hname
  | @unicode further digits v hlength hwrites =>
    cases h
    exact readEscape_unicode (codePoint?_eq_some_iff.mpr (.inl ⟨hlength, hwrites⟩))
  | @signed further digits v hlength hwrites =>
    cases h
    exact readEscape_unicode (codePoint?_eq_some_iff.mpr (.inr ⟨digits, rfl, hlength, hwrites⟩))
  | @octal digits v hlength hwrites =>
    cases h
    cases digits with
    | nil => exact absurd rfl hwrites.ne_nil
    | cons c more =>
      have hc : isDigitOf 8 c := isDigitOf_iff.mpr (hwrites.exists_isDigit c List.mem_cons_self)
      have hmore := takeWhile_eq_of_ends hlength hwrites hends
      rw [List.append_eq, List.cons_append, readEscape_digit hc hmore, hwrites.number?,
        Option.getD_some, Char.ofNat_toNat, List.drop_left]

theorem exists_piece_of_readEscape_unicode (h : readEscape ('u' :: cs) = .ok (v, rest)) :
    ∃ p : Piece, p.Means v ∧ p.Ends rest ∧ '\\' :: 'u' :: cs = p.text ++ rest := by
  obtain ⟨hcode, hrest⟩ := readEscape_unicode_eq_ok_iff.mp h
  have hus : cs.takeWhile (· == 'u') = List.replicate (cs.takeWhile (· == 'u')).length 'u' := by
    refine List.eq_replicate_iff.mpr ⟨rfl, fun c hc => ?_⟩
    simpa using List.all_eq_true.mp List.all_takeWhile c hc
  have hcs : cs = List.replicate (cs.takeWhile (· == 'u')).length 'u' ++
      ((cs.dropWhile (· == 'u')).take 4 ++ rest) := by
    rw [← hrest, List.take_append_drop, ← hus, List.takeWhile_append_dropWhile]
  generalize (cs.takeWhile (· == 'u')).length = further at hcs
  generalize (cs.dropWhile (· == 'u')).take 4 = four at hcode hcs
  subst hcs
  rcases codePoint?_eq_some_iff.mp hcode with ⟨hlength, hwrites⟩ | ⟨three, rfl, hlength, hwrites⟩
  · refine ⟨.unicode further four, .unicode hlength hwrites, ends_of_not_octal nofun, ?_⟩
    simp [Piece.text]
  · refine ⟨.signed further three, .signed hlength hwrites, ends_of_not_octal nofun, ?_⟩
    simp [Piece.text]

theorem exists_piece_of_readEscape_digit {c : Char} (hc : isDigitOf 8 c)
    (h : readEscape (c :: cs) = .ok (v, rest)) :
    ∃ p : Piece, p.Means v ∧ p.Ends rest ∧ '\\' :: c :: cs = p.text ++ rest := by
  generalize hmore : (cs.take (if c ≤ '3' then 2 else 1)).takeWhile (isDigitOf 8) = more
  have hall : ∀ x ∈ more, isDigitOf 8 x := by
    rw [← hmore]
    exact List.all_eq_true.mp List.all_takeWhile
  have hlength : Piece.OctalLength (c :: more) := by
    rw [octalLength_cons_iff, ← hmore]
    exact Nat.le_trans (List.takeWhile_sublist _).length_le (List.length_take_le _ _)
  have hsplit : more ++ cs.drop more.length = cs := by
    rw [← List.prefix_iff_eq_append, ← hmore]
    exact (List.takeWhile_prefix _).trans (List.take_prefix _ _)
  obtain ⟨n, hn⟩ : ∃ n, Writes 8 (c :: more) n := by
    refine exists_writes (List.cons_ne_nil c more) (List.forall_mem_cons.mpr ⟨?_, ?_⟩)
    · exact isDigitOf_iff.mp hc
    · exact fun x hx => isDigitOf_iff.mp (hall x hx)
  rw [readEscape_digit hc hmore, hn.number?] at h
  cases h
  refine ⟨.octal (c :: more), means_octal hlength hn, ?_, ?_⟩
  -- a digit is left only if as many are taken as there may be
  · rintro digits next w ⟨⟩ hnext hmeans
    cases hmeans with
    | octal hlonger hwrites =>
      rw [List.cons_append, octalLength_cons_iff, List.length_append, List.length_singleton]
        at hlonger
      have hdigit : isDigitOf 8 next :=
        isDigitOf_iff.mpr (hwrites.exists_isDigit next (by simp))
      rw [← hmore] at hnext hlonger
      rw [length_eq_of_head?_drop hnext hdigit] at hlonger
      omega
  · rw [Piece.text, List.cons_append, List.cons_append, hsplit]

theorem exists_piece_of_readEscape (h : readEscape cs = .ok (v, rest)) :
    ∃ p : Piece, p.Means v ∧ p.Ends rest ∧ '\\' :: cs = p.text ++ rest := by
  cases cs with
  | nil => cases h
  | cons c cs =>
    by_cases hu : c = 'u'
    · subst hu
      exact exists_piece_of_readEscape_unicode h
    by_cases hc : isDigitOf 8 c
    · exact exists_piece_of_readEscape_digit hc h
    · rw [readEscape] at h
      · rw [if_neg hc] at h
        split at h
        · next w hname =>
          cases h
          refine ⟨.named c, .named (namedEscape?_eq_some_iff.mp hname), ?_, rfl⟩
          exact ends_of_not_octal nofun
        · cases h
      · exact hu

end Escape

/-! ## The whole text -/

theorem unescape_plain {c : Char} {cs : List Char} (hc : c ≠ '\\') :
    unescape (c :: cs) = (unescape cs).map (c :: ·) := by
  rw [unescape, if_neg hc]

theorem unescape_escape {cs rest : List Char} {v : Char} (h : readEscape cs = .ok (v, rest)) :
    unescape ('\\' :: cs) = (unescape rest).map (v :: ·) := by
  rw [unescape, if_pos rfl]
  split
  · next heq =>
    rw [h] at heq
    cases heq
    rfl
  · next heq =>
    rw [h] at heq
    cases heq

theorem exists_spells_of_unescape {body vs : List Char} (h : unescape body = .ok vs) :
    ∃ ps, Spells ps body vs := by
  fun_induction unescape body generalizing vs with
  | case1 =>
    cases h
    exact ⟨[], .nil⟩
  | case2 cs v rest hread _ ih =>
    cases hrest : unescape rest with
    | error fault =>
      rw [hrest] at h
      cases h
    | ok ws =>
      rw [hrest] at h
      cases h
      obtain ⟨ps, hps⟩ := ih hrest
      obtain ⟨p, hmeans, hends, htext⟩ := exists_piece_of_readEscape hread
      rw [htext]
      exact ⟨p :: ps, .cons hmeans hends hps⟩
  | case3 cs fault hread => cases h
  | case4 c cs hc ih =>
    cases hrest : unescape cs with
    | error fault =>
      rw [hrest] at h
      cases h
    | ok ws =>
      rw [hrest] at h
      cases h
      obtain ⟨ps, hps⟩ := ih hrest
      exact ⟨.plain c :: ps, .cons (.plain hc) (ends_of_not_octal nofun) hps⟩

theorem Spells.unescape_eq {ps : List Piece} {body vs : List Char} (h : Spells ps body vs) :
    unescape body = .ok vs := by
  induction h with
  | nil => rw [unescape]
  | @cons p v ps rest vs hmeans hends hrest ih =>
    rcases p.plain_or_escape with ⟨c, rfl⟩ | ⟨cs, hcs⟩
    · cases hmeans with
      | plain hc =>
        rw [Piece.text, List.singleton_append, unescape_plain hc, ih]
        rfl
    · have hread : readEscape (cs ++ rest) = .ok (v, rest) :=
        readEscape_of_piece hmeans hends (by rw [hcs]; rfl)
      rw [hcs, List.cons_append, unescape_escape hread, ih]
      rfl

/-- The characters read from a text are those of its pieces. -/
theorem unescape_eq_ok_iff {body vs : List Char} :
    unescape body = .ok vs ↔ ∃ ps, Spells ps body vs :=
  ⟨exists_spells_of_unescape, fun ⟨_, h⟩ => h.unescape_eq⟩

/-! ## One way to make a text of pieces -/

/-- The piece of the given text. -/
def Piece.ofText : List Char → Piece
  | '\\' :: c :: cs =>
    if c = 'u' then
      let further := (cs.takeWhile (· == 'u')).length
      let digits := cs.dropWhile (· == 'u')
      if digits.head? = some '+' then .signed further digits.tail else .unicode further digits
    else if isDigitOf 8 c then .octal (c :: cs) else .named c
  | cs => .plain (cs.headD ' ')

theorem takeWhile_replicate_append (k : Nat) {cs : List Char} (h : cs.head? ≠ some 'u') :
    (List.replicate k 'u' ++ cs).takeWhile (· == 'u') = List.replicate k 'u' := by
  have hsplit := List.takeWhile_append_dropWhile (p := (· == 'u')) (l := List.replicate k 'u' ++ cs)
  rw [dropWhile_replicate_append k h] at hsplit
  exact List.append_cancel_right hsplit

theorem Piece.ofText_text {p : Piece} {v : Char} (h : p.Means v) : ofText p.text = p := by
  cases h with
  | plain hc => simp [ofText, text]
  | named hname =>
    have hnames : ∀ entry ∈ names, ofText ['\\', entry.1] = .named entry.1 := by decide
    exact hnames _ hname
  | @unicode further digits v hlength hwrites =>
    have hu : digits.head? ≠ some 'u' := hwrites.head?_ne rfl
    have hplus : digits.head? ≠ some '+' := hwrites.head?_ne rfl
    simp only [text, ofText, dropWhile_replicate_append further hu,
      takeWhile_replicate_append further hu, List.length_replicate, if_true, if_neg hplus]
  | @signed further digits v hlength hwrites =>
    have hu : ('+' :: digits).head? ≠ some 'u' := by simp
    simp only [text, ofText, dropWhile_replicate_append further hu,
      takeWhile_replicate_append further hu, List.length_replicate, if_true, List.head?_cons,
      List.tail_cons]
  | @octal digits v hlength hwrites =>
    cases digits with
    | nil => exact absurd rfl hwrites.ne_nil
    | cons c more =>
      have hu : c ≠ 'u' := fun hc => hwrites.head?_ne rfl (congrArg some hc)
      have hc : isDigitOf 8 c := isDigitOf_iff.mpr (hwrites.exists_isDigit c List.mem_cons_self)
      simp only [text, ofText, if_neg hu, hc, if_true]

/-- Where a piece ends, the rest of the text begins. -/
theorem Piece.rest_unique {p q : Piece} {v w : Char} {rest rest' : List Char} (hp : p.Means v)
    (hends : p.Ends rest) (hq : q.Means w) (hends' : q.Ends rest')
    (h : p.text ++ rest = q.text ++ rest') : rest = rest' := by
  rcases p.plain_or_escape with ⟨c, rfl⟩ | ⟨cs, hcs⟩ <;>
    rcases q.plain_or_escape with ⟨c', rfl⟩ | ⟨cs', hcs'⟩
  · exact (List.cons.inj h).2
  · cases hp with
    | plain hc =>
      rw [hcs'] at h
      exact absurd (List.cons.inj h).1 hc
  · cases hq with
    | plain hc =>
      rw [hcs] at h
      exact absurd (List.cons.inj h).1.symm hc
  · have hread : readEscape (cs ++ rest) = .ok (v, rest) :=
      readEscape_of_piece hp hends (by rw [hcs]; rfl)
    have hread' : readEscape (cs ++ rest) = .ok (w, rest') :=
      readEscape_of_piece hq hends' (by rw [← h, hcs]; rfl)
    rw [hread] at hread'
    cases hread'
    rfl

theorem Piece.unique {p q : Piece} {v w : Char} {rest rest' : List Char} (hp : p.Means v)
    (hends : p.Ends rest) (hq : q.Means w) (hends' : q.Ends rest')
    (h : p.text ++ rest = q.text ++ rest') : p = q ∧ rest = rest' := by
  obtain rfl := rest_unique hp hends hq hends' h
  refine ⟨?_, rfl⟩
  rw [← ofText_text hp, List.append_cancel_right h, ofText_text hq]

theorem Piece.text_ne_nil {p : Piece} : p.text ≠ [] := by
  cases p <;> simp [text]

theorem Spells.nil_or_cons {ps : List Piece} {body vs : List Char} (h : Spells ps body vs) :
    (ps = [] ∧ body = []) ∨ ∃ p v qs rest ws, p.Means v ∧ p.Ends rest ∧ Spells qs rest ws ∧
      ps = p :: qs ∧ body = p.text ++ rest := by
  cases h with
  | nil => exact .inl ⟨rfl, rfl⟩
  | cons hmeans hends hrest => exact .inr ⟨_, _, _, _, _, hmeans, hends, hrest, rfl, rfl⟩

theorem Spells.unique {ps qs : List Piece} {body vs ws : List Char} (hp : Spells ps body vs)
    (hq : Spells qs body ws) : ps = qs := by
  induction hp generalizing qs ws with
  | nil =>
    rcases hq.nil_or_cons with ⟨rfl, -⟩ | ⟨q, _, _, _, _, -, -, -, -, heq⟩
    · rfl
    · exact absurd (List.append_eq_nil_iff.mp heq.symm).1 q.text_ne_nil
  | @cons p v ps rest vs hmeans hends _ ih =>
    rcases hq.nil_or_cons with ⟨-, heq⟩ | ⟨q, w, qs, rest', ws, hmeans', hends', hqs, rfl, heq⟩
    · exact absurd (List.append_eq_nil_iff.mp heq).1 p.text_ne_nil
    · obtain ⟨rfl, rfl⟩ := Piece.unique hmeans hends hmeans' hends' heq
      rw [ih hqs]

/-! ## Reading -/

/-- The text, without the white space around it, is a body of the right form between two quotes. -/
def Quotes (quote : Char) (text : String) (body : List Char) : Prop :=
  Text.trim text.toList = quote :: (body ++ [quote]) ∧ QuotedBody quote body

theorem Quotes.unique {quote : Char} {text : String} {body : List Char}
    (h : Quotes quote text body) (body' : List Char)
    (h' : Text.trim text.toList = quote :: (body' ++ [quote])) : body = body' :=
  List.append_cancel_right (List.cons.inj (h.1.symm.trans h')).2

section Reading

variable {text : String} {l : Literal}

theorem read_string_iff {s : String} : read text = .ok (.string s) ↔
    ∃ body, Quotes '"' text body ∧ unescape body = .ok s.toList := by
  rw [read_eq_ok_iff, valueOf_eq_ok_iff]
  constructor
  · rintro ⟨cls, t, hscan, hvalue⟩
    obtain ⟨body, rfl⟩ := Token.makes_of_value hvalue
    obtain rfl : cls = .string := TokenClass.gives_of_scan? hscan
    obtain ⟨_, htext, hbody, ⟨⟩⟩ := scanString?_eq_some_iff.mp hscan
    obtain ⟨cs, hcs, hs⟩ := Token.value_string_eq_ok_iff.mp hvalue
    cases hs
    exact ⟨body, ⟨htext, hbody⟩, by rw [hcs, String.toList_ofList]⟩
  · rintro ⟨body, ⟨htext, hbody⟩, hcs⟩
    refine ⟨.string, .string body, scanString?_eq_some_iff.mpr ⟨body, htext, hbody, rfl⟩, ?_⟩
    exact Token.value_string_eq_ok_iff.mpr ⟨s.toList, hcs, by rw [String.ofList_toList]⟩

theorem read_char_iff {c : Char} : read text = .ok (.char c) ↔
    ∃ body, Quotes '\'' text body ∧ unescape body = .ok [c] := by
  rw [read_eq_ok_iff, valueOf_eq_ok_iff]
  constructor
  · rintro ⟨cls, t, hscan, hvalue⟩
    obtain ⟨body, rfl⟩ := Token.makes_of_value hvalue
    obtain rfl : cls = .char := TokenClass.gives_of_scan? hscan
    obtain ⟨_, -, htext, hbody, ⟨⟩⟩ := scanChar?_eq_some_iff.mp hscan
    obtain ⟨_, hc, ⟨⟩⟩ := Token.value_char_eq_ok_iff.mp hvalue
    exact ⟨body, ⟨htext, hbody⟩, hc⟩
  · rintro ⟨body, ⟨htext, hbody⟩, hc⟩
    have hne : body ≠ [] := by
      rintro rfl
      rw [unescape] at hc
      cases hc
    refine ⟨.char, .char body, scanChar?_eq_some_iff.mpr ⟨body, hne, htext, hbody, rfl⟩, ?_⟩
    exact Token.value_char_eq_ok_iff.mpr ⟨c, hc, rfl⟩

/-- A double quote begins a string, or what is no literal. -/
theorem exists_string_of_read (hquote : (Text.trim text.toList).head? = some '"')
    (h : read text = .ok l) : ∃ s, l = .string s := by
  obtain ⟨cls, t, hscan, hvalue⟩ := valueOf_eq_ok_iff.mp (read_eq_ok_iff.mp h)
  obtain rfl : cls = .string := by
    rw [TokenClass.eq_only_of_scan? hscan, TokenClass.only, hquote]
    rfl
  obtain ⟨body, -, -, rfl⟩ := scanString?_eq_some_iff.mp hscan
  obtain ⟨cs, -, rfl⟩ := Token.value_string_eq_ok_iff.mp hvalue
  exact ⟨_, rfl⟩

theorem exists_char_of_read (hquote : (Text.trim text.toList).head? = some '\'')
    (h : read text = .ok l) : ∃ c, l = .char c := by
  obtain ⟨cls, t, hscan, hvalue⟩ := valueOf_eq_ok_iff.mp (read_eq_ok_iff.mp h)
  obtain rfl : cls = .char := by
    rw [TokenClass.eq_only_of_scan? hscan, TokenClass.only, hquote]
    rfl
  obtain ⟨body, -, -, -, rfl⟩ := scanChar?_eq_some_iff.mp hscan
  obtain ⟨c, -, rfl⟩ := Token.value_char_eq_ok_iff.mp hvalue
  exact ⟨c, rfl⟩

/-- What is no literal gives an error with its text. -/
theorem exists_fault_iff : (∃ fault,
    read text = .error ⟨String.ofList (Text.trim text.toList), fault⟩) ↔ ¬ ∃ l, read text = .ok l := by
  simp only [read_eq_ok_iff, read_eq_error_iff]
  cases valueOf (Text.trim text.toList) <;> simp

/-- The pieces of a text are determined by it. -/
theorem unescape_eq_ok_iff_unique {body vs : List Char} :
    unescape body = .ok vs ↔ ∃! ps, Spells ps body vs := by
  rw [unescape_eq_ok_iff]
  exact ⟨fun ⟨ps, h⟩ => ⟨ps, h, fun qs h' => h'.unique h⟩, fun ⟨ps, h, _⟩ => ⟨ps, h⟩⟩

end Reading

/-- A text in double quotes is read as the characters of its pieces, and a text in single quotes as
the character of its only one. Every other text that begins with a quote gives an error with the
text. No text is divided into pieces in two ways, so one with a plus sign in place of the first
digit of a code point has no other reading. -/
theorem read_quoted_text (text : String) :
    (∀ s, read text = .ok (.string s) ↔
      ∃ body, Quotes '"' text body ∧ ∃! ps, Spells ps body s.toList) ∧
    (∀ c, read text = .ok (.char c) ↔
      ∃ body, Quotes '\'' text body ∧ ∃! ps, Spells ps body [c]) ∧
    ((Text.trim text.toList).head? = some '"' →
      ((∃ fault, read text = .error ⟨String.ofList (Text.trim text.toList), fault⟩) ↔
        ¬ ∃ body ps vs, Quotes '"' text body ∧ Spells ps body vs)) ∧
    ((Text.trim text.toList).head? = some '\'' →
      ((∃ fault, read text = .error ⟨String.ofList (Text.trim text.toList), fault⟩) ↔
        ¬ ∃ body ps v, Quotes '\'' text body ∧ Spells ps body [v])) := by
  simp only [← unescape_eq_ok_iff_unique, exists_fault_iff]
  refine ⟨fun s => read_string_iff, fun c => read_char_iff, fun hquote => not_congr ?_,
    fun hquote => not_congr ?_⟩
  · constructor
    · rintro ⟨l, h⟩
      obtain ⟨s, rfl⟩ := exists_string_of_read hquote h
      obtain ⟨body, hbody, hs⟩ := read_string_iff.mp h
      obtain ⟨ps, hps⟩ := unescape_eq_ok_iff.mp hs
      exact ⟨body, ps, _, hbody, hps⟩
    · rintro ⟨body, ps, vs, hbody, hps⟩
      refine ⟨.string (String.ofList vs), read_string_iff.mpr ⟨body, hbody, ?_⟩⟩
      rw [hps.unescape_eq, String.toList_ofList]
  · constructor
    · rintro ⟨l, h⟩
      obtain ⟨c, rfl⟩ := exists_char_of_read hquote h
      obtain ⟨body, hbody, hc⟩ := read_char_iff.mp h
      obtain ⟨ps, hps⟩ := unescape_eq_ok_iff.mp hc
      exact ⟨body, ps, c, hbody, hps⟩
    · rintro ⟨body, ps, v, hbody, hps⟩
      exact ⟨.char v, read_char_iff.mpr ⟨body, hbody, hps.unescape_eq⟩⟩

theorem read_quoted_octal_and_surrogate :
    read " \"\\400\\uu20ac\" " = .ok (.string " 0€") ∧
    (Text.trim "'\\ud800'".toList).head? = some '\'' ∧
    ∃ fault, read "'\\ud800'" = .error ⟨"'\\ud800'", fault⟩ := by
  have hquote : (Text.trim "'\\ud800'".toList).head? = some '\'' := by decide +kernel
  refine ⟨?_, hquote, ?_⟩
  · refine ((read_quoted_text _).1 _).mpr ⟨"\\400\\uu20ac".toList, ⟨by decide +kernel, ?_⟩, ?_⟩
    · have hbody : bodyBefore? '"' "\\400\\uu20ac\"".toList = some "\\400\\uu20ac".toList := by
        decide +kernel
      exact (quotedBody_of_bodyBefore? hbody).2
    · rw [← unescape_eq_ok_iff_unique]
      decide +kernel
  · refine ((read_quoted_text _).2.2.2 hquote).mpr ?_
    rintro ⟨body, ps, v, hbody, hps⟩
    obtain rfl := hbody.unique "\\ud800".toList (by decide +kernel)
    have hfault : (unescape "\\ud800".toList).toOption = none := by decide +kernel
    rw [hps.unescape_eq] at hfault
    cases hfault

/-- A plus sign and three digits are accepted as a code point, and there is no other way to divide
this text. -/
theorem read_plus_sign_in_code_point :
    read "\"\\u+041\"" = .ok (.string "A") ∧
    ¬ ∃ body ps vs, Quotes '"' "\"\\u+041\"" body ∧ Spells ps body vs ∧
      ∀ further digits, Piece.signed further digits ∉ ps := by
  have hwrites : Writes 16 ['0', '4', '1'] 'A'.toNat :=
    (number?_eq_some_iff (by decide)).mp (by decide +kernel)
  have hspells : Spells [.signed 0 ['0', '4', '1']] "\\u+041".toList ['A'] :=
    .cons (.signed rfl hwrites) (ends_of_not_octal nofun) .nil
  constructor
  · decide +kernel
  · rintro ⟨body, ps, vs, hbody, hps, hunsigned⟩
    obtain rfl := hbody.unique "\\u+041".toList (by decide +kernel)
    rw [hps.unique hspells] at hunsigned
    exact hunsigned 0 ['0', '4', '1'] List.mem_cons_self

end SourceModel.Literal
