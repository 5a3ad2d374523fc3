import SourceModel.Literal.Basic
import SourceModel.Literal.Digits

/-!
Escape sequences in string and character literals.
-/

namespace SourceModel.Literal

/-- The character named by a single letter or sign after the backslash. -/
def namedEscape? : Char → Option Char
  | 'n' => some '\n'
  | 't' => some '\t'
  | 'r' => some '\r'
  | 'b' => some '\x08'
  | 'f' => some '\x0c'
  | 's' => some ' '
  | '"' => some '"'
  | '\'' => some '\''
  | '\\' => some '\\'
  | _ => none

/-- The number written by four characters: hexadecimal digits, the first of which may give way to
a plus sign. -/
def codePoint? (four : List Char) : Option Nat :=
  if four.length = 4 then
    match four with
    | '+' :: digits => number? 16 digits
    | digits => number? 16 digits
  else none

/-- The character of a code point that is no surrogate. -/
def scalar? (n : Nat) : Option Char :=
  if n.isValidChar then some (Char.ofNat n) else none

/-- Reads what follows a backslash: the character it stands for, and the rest of the text. -/
def readEscape : List Char → Except LiteralFault (Char × List Char)
  | [] => .error .escape
  | 'u' :: cs =>
    -- Any number of further letters `u` may stand before the code point.
    let digits := cs.dropWhile (· == 'u')
    match (codePoint? (digits.take 4)).bind scalar? with
    | some c => .ok (c, digits.drop 4)
    | none => .error .unicodeEscape
  | c :: cs =>
    match namedEscape? c with
    | some v => .ok (v, cs)
    | none =>
      if isDigitOf 8 c then
        let more := (cs.take (if c ≤ '3' then 2 else 1)).takeWhile (isDigitOf 8)
        .ok (Char.ofNat ((number? 8 (c :: more)).getD 0), cs.drop more.length)
      else .error .escape

theorem length_lt_of_readEscape {cs rest : List Char} {c : Char}
    (h : readEscape cs = .ok (c, rest)) : rest.length < cs.length := by
  unfold readEscape at h
  split at h
  · cases h
  · rename_i cs'
    dsimp only at h
    have hle : (cs'.dropWhile (· == 'u')).length ≤ cs'.length :=
      (List.dropWhile_suffix _).length_le
    split at h
    · cases h
      simp only [List.length_drop, List.length_cons]
      omega
    · cases h
  · split at h
    · cases h
      simp
    · split at h
      · cases h
        simp only [List.length_drop, List.length_cons]
        omega
      · cases h

/-- The characters that the body of a quoted literal stands for. -/
def unescape (body : List Char) : Except LiteralFault (List Char) :=
  match body with
  | [] => .ok []
  | c :: cs =>
    if c = '\\' then
      match h : readEscape cs with
      | .ok (v, rest) =>
        have := length_lt_of_readEscape h
        (unescape rest).map (v :: ·)
      | .error e => .error e
    else (unescape cs).map (c :: ·)
termination_by body.length
decreasing_by all_goals simp only [List.length_cons]; omega

end SourceModel.Literal
