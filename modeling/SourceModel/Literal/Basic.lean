import SourceModel.Number.Text
import SourceModel.Text.Quoted

/-!
Values of literals. Whole numbers are 64-bit words and negation wraps.
-/

namespace SourceModel

inductive Literal where
  | string (value : String)
  | char (value : Char)
  | int (value : Int64)
  | float (value : Binary64)
  | bool (value : Bool)
  | null
deriving DecidableEq, Repr

namespace Literal

def isNumeric : Literal → Bool
  | .int _ | .float _ => true
  | _ => false

/-- The literal with its sign changed, if it is a number. -/
def negate? : Literal → Option Literal
  | .int n => some (.int (-n))
  | .float x => some (.float x.negate)
  | _ => none

def string? : Literal → Option String
  | .string s => some s
  | _ => none

/-- Equality of values; only for the two zeros does it differ from equality. -/
def sameValue : Literal → Literal → Bool
  | .float x, .float y => x.sameNumber y
  | a, b => a == b

/-- Displayed doubles are plain from `0.0001` up to `10 ^ 16`. -/
def floatStyle : FloatStyle := ⟨-4, 16, false, .up⟩

def displayFloat (x : Binary64) : String :=
  if x.isFinite then floatStyle.finiteText x else if x.isNegative then "-inf" else "inf"

def display : Literal → String
  | .string s => Text.quoted '"' s.toList
  | .char c => Text.quoted '\'' [c]
  | .int n => toString n.toInt
  | .float x => displayFloat x
  | .bool b => if b then "true" else "false"
  | .null => "null"

end Literal

/-- Why a text is no literal. -/
inductive LiteralFault where
  | notALiteral
  | missingDigits
  | outOfRange
  | notOneCharacter
  | unicodeEscape
  | escape
deriving DecidableEq, Repr

def LiteralFault.reason : LiteralFault → String
  | .notALiteral => "not a literal"
  | .missingDigits => "missing digits"
  | .outOfRange => "integer literal out of range"
  | .notOneCharacter => "character literal must hold one character"
  | .unicodeEscape => "invalid unicode escape"
  | .escape => "invalid escape sequence"

/-- A text, without the white space around it, that should have been a literal. -/
structure LiteralError where
  text : String
  fault : LiteralFault
deriving DecidableEq, Repr

def LiteralError.message (e : LiteralError) : String :=
  "malformed literal `" ++ e.text ++ "`: " ++ e.fault.reason

end SourceModel
