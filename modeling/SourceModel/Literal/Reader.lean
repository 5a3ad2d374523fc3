import SourceModel.Literal.Escape
import SourceModel.Literal.Token
import SourceModel.Text.Blank

/-!
Reading the text of a literal.
-/

namespace SourceModel.Literal

/-- The largest number a literal in the radix may write: any word, but in decimal only up to the
magnitude of the least signed number. -/
def largest (radix : Nat) : Nat :=
  if radix = 10 then 0x8000000000000000 else 0xffffffffffffffff

/-- The word of the digits, read as a signed number. -/
def integerValue (radix : Nat) (digits : List Char) : Except LiteralFault Literal :=
  let digits := digits.filter (· != '_')
  if digits = [] then .error .missingDigits
  else
    match number? radix digits with
    | some n =>
      if n ≤ largest radix then .ok (.int (UInt64.ofNat n).toInt64) else .error .outOfRange
    | none => .error .outOfRange

def Exponent.value (e : Exponent) : Int :=
  let n : Int := (number? 10 e.digits).getD 0
  if e.negative then -n else n

/-- The double nearest to the number written. -/
def FloatToken.value (t : FloatToken) : Binary64 :=
  let fraction := t.fraction.filter (· != '_')
  let digits := t.whole.filter (· != '_') ++ fraction
  let exponent := (t.exponent.map Exponent.value).getD 0
  .ofDecimal ((number? 10 digits).getD 0) (exponent - fraction.length)

def Token.value : Token → Except LiteralFault Literal
  | .bool b => .ok (.bool b)
  | .null => .ok .null
  | .integer radix digits => integerValue radix digits
  | .float t => .ok (.float t.value)
  | .string body => (unescape body).map fun cs => .string (String.ofList cs)
  | .char body => do
    match ← unescape body with
    | [c] => .ok (.char c)
    | _ => .error .notOneCharacter

/-- The value of a text without white space around it. -/
def valueOf (cs : List Char) : Except LiteralFault Literal :=
  match Token.scan? cs with
  | some t => t.value
  | none => .error .notALiteral

/-- Reads a literal; white space around it is ignored. -/
def read (text : String) : Except LiteralError Literal :=
  let cs := Text.trim text.toList
  (valueOf cs).mapError fun fault => ⟨String.ofList cs, fault⟩

end SourceModel.Literal
