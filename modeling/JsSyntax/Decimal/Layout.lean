import JsSyntax.Decimal.Shortest

/-! # Written numbers

How a double is written: plainly, always with a fraction, while its point stands near its digits,
and with an exponent otherwise. What near means, and how the exponent and a number out of range
are written, is up to the format.
-/

set_option autoImplicit false

namespace JsSyntax

structure NumberLayout where
  /-- A number below 1 with as many zeros after its point as this is not written plainly. -/
  zeros : Nat
  /-- The most digits before the point of a number that is written plainly. -/
  places : Nat
  /-- The sign of an exponent that is not negative. -/
  plus : String
  /-- The decimal taken when two shortest ones are equally near. -/
  tie : Tie
  /-- How an infinite value is written. -/
  infinite : String

namespace NumberLayout

/-- Digits with the point after the first `point` of them, `point` positive. -/
def plainFrom (digits : List Char) (point : Nat) : List Char :=
  if digits.length ≤ point then
    digits ++ List.replicate (point - digits.length) '0' ++ ['.', '0']
  else
    digits.take point ++ '.' :: digits.drop point

/-- Digits with a point after the first one, if there are more, and the exponent. -/
def scientific (layout : NumberLayout) (digits : List Char) (exponent : Int) : List Char :=
  let mantissa := match digits with
    | first :: second :: rest => first :: '.' :: second :: rest
    | _ => digits
  let sign := if exponent < 0 then "-" else layout.plus
  mantissa ++ 'e' :: sign.toList ++ Nat.toDigits 10 exponent.natAbs

def writeDecimal (layout : NumberLayout) (d : Decimal) : List Char :=
  let digits := Nat.toDigits 10 d.digits
  let point : Int := digits.length + d.exponent
  if 0 < point ∧ point ≤ layout.places then plainFrom digits point.toNat
  else if point ≤ 0 ∧ -point < layout.zeros then
    '0' :: '.' :: List.replicate (-point).toNat '0' ++ digits
  else layout.scientific digits (point - 1)

def write (layout : NumberLayout) : Double → String
  | .finite 0 _ => "0.0"
  | .finite mantissa exponent =>
    String.ofList (layout.writeDecimal (Double.shortest layout.tie mantissa exponent))
  | .infinite => layout.infinite

end NumberLayout

end JsSyntax
