import SourceModel.Literal.Digits

/-!
Lexical classes of literals. A class scans a whole text into a token, or refuses it.
-/

namespace SourceModel.Literal

structure Exponent where
  negative : Bool
  digits : List Char
deriving DecidableEq, Repr

/-- The parts of a floating-point literal, underscores included. -/
structure FloatToken where
  whole : List Char
  fraction : List Char
  exponent : Option Exponent
deriving DecidableEq, Repr

inductive Token where
  | bool (value : Bool)
  | null
  /-- Digits and underscores in a radix, without the mark of the radix and the long suffix. -/
  | integer (radix : Nat) (digits : List Char)
  | float (token : FloatToken)
  | string (body : List Char)
  | char (body : List Char)
deriving DecidableEq, Repr

inductive TokenClass where
  | trueWord
  | falseWord
  | nullWord
  | hex
  | binary
  | decimal
  | float
  | string
  | char
deriving DecidableEq, Repr

def isDigitOrUnderscore (radix : Nat) (c : Char) : Bool :=
  isDigitOf radix c || c == '_'

/-! ## Whole numbers -/

/-- The text without one suffix for long integers. -/
def dropLongSuffix (cs : List Char) : List Char :=
  match cs.getLast? with
  | some c => if c = 'l' ∨ c = 'L' then cs.dropLast else cs
  | none => cs

/-- A number after a two-character mark such as `0x`. -/
def scanMarked? (lowerMark upperMark : Char) (radix : Nat) : List Char → Option Token
  | '0' :: m :: cs =>
    let digits := dropLongSuffix cs
    if (m = lowerMark ∨ m = upperMark) ∧ digits ≠ [] ∧ digits.all (isDigitOrUnderscore radix) then
      some (.integer radix digits)
    else none
  | _ => none

/-- A number without a mark; a leading zero before other characters makes it octal. -/
def scanUnmarked? (cs : List Char) : Option Token :=
  match dropLongSuffix cs with
  | [] => none
  | c :: digits =>
    if isDigitOf 10 c ∧ digits.all (isDigitOrUnderscore 10) then
      if c = '0' ∧ digits ≠ [] then some (.integer 8 digits) else some (.integer 10 (c :: digits))
    else none

/-! ## Floating point -/

/-- An exponent at the start of the text, if there is one, and the rest; `none` if the mark of an
exponent is not followed by digits. -/
def scanExponent? : List Char → Option (Option Exponent × List Char)
  | [] => some (none, [])
  | c :: cs =>
    if c = 'e' ∨ c = 'E' then
      let negative := cs.head? == some '-'
      let unsigned := if cs.head? == some '+' || negative then cs.tail else cs
      let digits := unsigned.takeWhile (isDigitOf 10)
      if digits = [] then none
      else some (some ⟨negative, digits⟩, unsigned.dropWhile (isDigitOf 10))
    else some (none, c :: cs)

def isFloatSuffix (c : Char) : Bool :=
  c == 'f' || c == 'F' || c == 'd' || c == 'D'

/-- Exponent and suffix after the digits. Digits without a point need one of the two. -/
def scanFloatEnd? (whole fraction : List Char) (point : Bool) (cs : List Char) : Option Token :=
  match scanExponent? cs with
  | some (exponent, rest) =>
    if (rest = [] ∧ (point ∨ exponent.isSome)) ∨ rest.length = 1 ∧ rest.all isFloatSuffix then
      some (.float ⟨whole, fraction, exponent⟩)
    else none
  | none => none

/-- Digits with a point, an exponent or a suffix; the first character of the digits is no
underscore, and there is a digit before the point or right after it. -/
def scanFloat? (cs : List Char) : Option Token :=
  let whole := cs.takeWhile (isDigitOrUnderscore 10)
  match cs.dropWhile (isDigitOrUnderscore 10) with
  | '.' :: after =>
    let fraction := after.takeWhile (isDigitOrUnderscore 10)
    let first := if whole = [] then fraction else whole
    if first.head?.any (isDigitOf 10) then
      scanFloatEnd? whole fraction true (after.dropWhile (isDigitOrUnderscore 10))
    else none
  | rest => if whole.head?.any (isDigitOf 10) then scanFloatEnd? whole [] false rest else none

/-! ## Quoted text -/

/-- The text before a closing quote that ends the whole text. A backslash takes the next character
with it, and no line break stands inside. -/
def bodyBefore? (quote : Char) : List Char → Option (List Char)
  | [] => none
  | '\\' :: c :: cs => if c = '\n' then none else (bodyBefore? quote cs).map ('\\' :: c :: ·)
  | c :: cs =>
    if c = quote then if cs = [] then some [] else none
    else if c = '\\' ∨ c = '\n' then none
    else (bodyBefore? quote cs).map (c :: ·)

def scanString? : List Char → Option Token
  | '"' :: cs => (bodyBefore? '"' cs).map .string
  | _ => none

/-- A character literal holds at least one character. -/
def scanChar? : List Char → Option Token
  | '\'' :: cs =>
    match bodyBefore? '\'' cs with
    | some [] => none
    | body? => body?.map .char
  | _ => none

/-! ## Classes -/

/-- The token that the whole text is in the given class. -/
def TokenClass.scan? (cls : TokenClass) (cs : List Char) : Option Token :=
  match cls with
  | .trueWord => if cs = "true".toList then some (.bool true) else none
  | .falseWord => if cs = "false".toList then some (.bool false) else none
  | .nullWord => if cs = "null".toList then some .null else none
  | .hex => scanMarked? 'x' 'X' 16 cs
  | .binary => scanMarked? 'b' 'B' 2 cs
  | .decimal => scanUnmarked? cs
  | .float => scanFloat? cs
  | .string => scanString? cs
  | .char => scanChar? cs

def TokenClass.all : List TokenClass :=
  [.trueWord, .falseWord, .nullWord, .hex, .binary, .decimal, .float, .string, .char]

theorem TokenClass.mem_all (cls : TokenClass) : cls ∈ all := by
  cases cls <;> decide

/-- The token of the first class that has the whole text. -/
def Token.scan? (cs : List Char) : Option Token :=
  TokenClass.all.findSome? (·.scan? cs)

end SourceModel.Literal
