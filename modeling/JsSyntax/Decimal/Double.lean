import JsSyntax.Decimal.Numeral

/-! # Double-precision numbers

The nonnegative numbers of the binary format with 53 significant bits, as exact values. A ratio
or a decimal is rounded to the nearest of them, a tie to the one with the even mantissa.
-/

set_option autoImplicit false

namespace JsSyntax

/-! ## Whole numbers -/

def powTwo (n : Nat) : Nat := Nat.pow 2 n

def powTen (n : Nat) : Nat := Nat.pow 10 n

/-- The quotient rounded to the nearest whole number, a tie to the even one. -/
def roundDiv (num den : Nat) : Nat :=
  let quotient := num / den
  let twice := 2 * (num % den)
  if twice < den then quotient
  else if den < twice then quotient + 1
  else quotient + quotient % 2

/-! ## Doubles -/

/-- The number `mantissa · 2 ^ exponent`, or the value of everything too large. -/
inductive Double where
  | finite (mantissa : Nat) (exponent : Int)
  | infinite
deriving DecidableEq, Repr

namespace Double

/-- The least exponent of a finite number. -/
def leastExponent : Int := -1074

/-- The greatest exponent of a finite number. -/
def greatestExponent : Int := 971

/-- The number of bits of a mantissa. -/
def precision : Nat := 53

def zero : Double := .finite 0 leastExponent

/-- A ratio that is `num / den` divided by `2 ^ e`. -/
def scaledRatio (num den : Nat) (e : Int) : Nat × Nat :=
  (num * powTwo (-e).toNat, den * powTwo e.toNat)

/-- The greatest `e` for which `2 ^ e` is at most `num / den`, both positive. -/
def ratioLog2 (num den : Nat) : Int :=
  let e : Int := Int.ofNat num.log2 - Int.ofNat den.log2
  let (n, d) := scaledRatio num den e
  if d ≤ n then e else e - 1

/-- The double nearest to `num / den`, both positive. -/
def ofRatio (num den : Nat) : Double :=
  let e := max (ratioLog2 num den - (precision - 1)) leastExponent
  let (n, d) := scaledRatio num den e
  let mantissa := roundDiv n d
  let (mantissa, e) :=
    if mantissa = powTwo precision then (powTwo (precision - 1), e + 1) else (mantissa, e)
  if greatestExponent < e then .infinite else .finite mantissa e

/-- The double nearest to a decimal. Decimals far outside the range are settled by their exponent
alone: `10 ^ 310` exceeds every double, and for a negative `e` the number `10 ^ e` is at most
`2 ^ (3 * e)`. -/
def ofDecimal (d : Decimal) : Double :=
  if d.digits = 0 then zero
  else if 310 < d.exponent then .infinite
  else if Int.ofNat d.digits.log2 + 1 + 3 * d.exponent < leastExponent - 2 then zero
  else ofRatio (d.digits * powTen d.exponent.toNat) (powTen (-d.exponent).toNat)

/-- The double nearest to the value of a numeral. -/
def ofNumeral? (text : String) : Option Double :=
  (Decimal.ofNumeral? text.toList).map ofDecimal

end Double

end JsSyntax
