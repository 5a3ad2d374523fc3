import SourceModel.Number.Shortest

/-!
Doubles as text: the shortest digits, laid out plainly or with an exponent.
-/

namespace SourceModel

/-- How a double is laid out. Numbers from `10 ^ plainFrom` up to `10 ^ plainBelow` are written
without an exponent. -/
structure FloatStyle where
  plainFrom : Int
  plainBelow : Int
  /-- Whether a positive exponent carries a sign. -/
  signedExponent : Bool
  tie : Tie

namespace Decimal

/-- Positional layout, with at least one digit on each side of the point. -/
def plain (d : Decimal) : List Char :=
  let ds := d.digits
  let whole := if d.point ≤ 0 then ['0']
    else ds.take d.point.toNat ++ List.replicate (d.point.toNat - ds.length) '0'
  let fraction := List.replicate (-d.point).toNat '0' ++ ds.drop d.point.toNat
  whole ++ '.' :: (if fraction.isEmpty then ['0'] else fraction)

/-- One digit, the others after a point if there are any, and the exponent. -/
def scientific (signedExponent : Bool) (d : Decimal) : List Char :=
  let e := d.point - 1
  let exponent := (if e < 0 then ['-'] else if signedExponent then ['+'] else [])
    ++ Nat.toDigits 10 e.natAbs
  match d.digits with
  | [] => []
  | [c] => c :: 'e' :: exponent
  | c :: cs => c :: '.' :: cs ++ 'e' :: exponent

end Decimal

namespace FloatStyle

/-- The text of a finite double. -/
def finiteText (style : FloatStyle) (x : Binary64) : String :=
  let d := x.shortest style.tie
  let sign := if x.isNegative then ['-'] else []
  String.ofList <| sign ++
    if x.magnitude = 0 ∨ (style.plainFrom < d.point ∧ d.point ≤ style.plainBelow) then d.plain
    else d.scientific style.signedExponent

end FloatStyle

end SourceModel
