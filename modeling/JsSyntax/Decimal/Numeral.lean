import JsSyntax.Token.Vocabulary

/-! # Decimal numerals

A decimal is a whole number of powers of ten. `Decimal.ofNumeral?` reads one from text: digits
with an optional point among them or at either end, then an optional exponent of at least one
digit.
-/

set_option autoImplicit false

namespace JsSyntax

/-- The number `digits · 10 ^ exponent`. -/
structure Decimal where
  digits : Nat
  exponent : Int
deriving DecidableEq, Repr

namespace Decimal

/-- The value of a run of decimal digits. -/
def digitsValue (cs : List Char) : Nat :=
  cs.foldl (fun value c => 10 * value + (c.toNat - '0'.toNat)) 0

/-- The value of a run of at least one digit. -/
def digits? (cs : List Char) : Option Nat :=
  if cs.isEmpty || !cs.all Char.isDigit then none else some (digitsValue cs)

def signedDigits? : List Char → Option Int
  | '+' :: cs => (digits? cs).map Int.ofNat
  | '-' :: cs => (digits? cs).map fun n => -Int.ofNat n
  | cs => (digits? cs).map Int.ofNat

/-- The exponent that `cs` writes; no text writes the exponent 0. -/
def exponent? : List Char → Option Int
  | [] => some 0
  | c :: cs => if isExponentMark c then signedDigits? cs else none

/-- Splits off a point and the digits after it, if there is a point. -/
def fraction : List Char → List Char × List Char
  | '.' :: cs => cs.span Char.isDigit
  | cs => ([], cs)

/-- The decimal that a numeral writes. -/
def ofNumeral? (cs : List Char) : Option Decimal :=
  let (whole, cs) := cs.span Char.isDigit
  let (part, cs) := fraction cs
  if whole.isEmpty && part.isEmpty then none
  else (exponent? cs).map fun e => ⟨digitsValue (whole ++ part), e - part.length⟩

end Decimal

end JsSyntax
