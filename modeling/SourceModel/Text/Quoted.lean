import SourceModel.Text.DefaultIgnorable
import SourceModel.Text.GraphemeExtend
import SourceModel.Text.Unprintable

/-!
Text shown between quotes, on one line and without marks that could join a neighbour.
-/

namespace SourceModel.Text

/-- The code point of `c` in lower-case hexadecimal, as an escape. -/
def codePointEscape (c : Char) : List Char :=
  "\\u\x7b".toList ++ Nat.toDigits 16 c.toNat ++ ['\x7d']

/-- Whether a character would not show, or would show as a part of its neighbour. -/
def isHidden (c : Char) : Bool :=
  isCombining c || isDefaultIgnorable c || isUnprintable c

/-- One character inside `quote` marks. -/
def escapeInside (quote c : Char) : List Char :=
  if c = '\x00' then ['\\', '0']
  else if c = '\t' then ['\\', 't']
  else if c = '\r' then ['\\', 'r']
  else if c = '\n' then ['\\', 'n']
  else if c = '\\' ∨ c = quote then ['\\', c]
  else if isHidden c then codePointEscape c
  else [c]

/-- The text between two `quote` marks, with escapes for the quote, the backslash and hidden
characters. -/
def quoted (quote : Char) (cs : List Char) : String :=
  String.ofList (quote :: cs.flatMap (escapeInside quote) ++ [quote])

end SourceModel.Text
