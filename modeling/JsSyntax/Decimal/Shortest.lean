import JsSyntax.Decimal.Double

/-! # Shortest decimals

The decimals that read back as a given double fill an interval around it. Of those with the
fewest digits `Double.shortest` takes the nearest: it looks for the coarsest grid of powers of
ten that has a point in the interval.
-/

set_option autoImplicit false

namespace JsSyntax

/-- Which of two decimals is taken when a double lies in the middle between them. -/
inductive Tie where
  | toEven
  | up
deriving DecidableEq, Repr

/-- The interval of numbers that round to a double, and the double itself, in units of
`2 ^ exponent`. The ends belong to it when the mantissa is even. -/
structure RoundingInterval where
  low : Nat
  value : Nat
  high : Nat
  closed : Bool
  exponent : Int
deriving DecidableEq, Repr

namespace RoundingInterval

/-- The interval of `mantissa · 2 ^ exponent`, in quarters of the last bit. Below a power of two
the doubles lie twice as close. -/
def ofFinite (mantissa : Nat) (exponent : Int) : RoundingInterval where
  low :=
    if mantissa = powTwo (Double.precision - 1) ∧ Double.leastExponent < exponent then
      4 * mantissa - 1
    else
      4 * mantissa - 2
  value := 4 * mantissa
  high := 4 * mantissa + 2
  closed := mantissa % 2 = 0
  exponent := exponent - 2

/-- The multiple of `10 ^ grid` nearest to the value, among those in the interval. -/
def nearestOn? (i : RoundingInterval) (tie : Tie) (grid : Int) : Option Nat :=
  let scale := powTwo i.exponent.toNat * powTen (-grid).toNat
  let unit := powTen grid.toNat * powTwo (-i.exponent).toNat
  let value := i.value * scale
  let below := value / unit
  let above := below + 1
  let inside (n : Nat) : Bool :=
    (i.low * scale < n * unit && n * unit < i.high * scale)
      || (i.closed && (n * unit == i.low * scale || n * unit == i.high * scale))
  let toBelow := value - below * unit
  let toAbove := above * unit - value
  match inside below, inside above with
  | false, false => none
  | true, false => some below
  | false, true => some above
  | true, true =>
    if toBelow < toAbove then some below
    else if toAbove < toBelow then some above
    else match tie with
      | .toEven => some (below + below % 2)
      | .up => some above

/-- The nearest point on the coarsest grid that has one, from `10 ^ grid` on down. -/
def search (i : RoundingInterval) (tie : Tie) : Nat → Int → Decimal
  | 0, grid => ⟨0, grid⟩
  | steps + 1, grid =>
    match i.nearestOn? tie grid with
    | some n => ⟨n, grid⟩
    | none => i.search tie steps (grid - 1)

end RoundingInterval

namespace Double

/-- The exponent of a power of ten above `2 ^ e`: the decimal logarithm of 2 lies between 0.301 and
0.302. -/
def tenAbove (e : Int) : Int := e * (if 0 ≤ e then 302 else 301) / 1000 + 1

/-- The shortest decimal that reads back as `mantissa · 2 ^ exponent`. The numbers that do lie below
the power of two above the mantissa, so no coarser grid has one of them; and every finite double is
a multiple of `10 ^ leastExponent`, so the search ends with a point. -/
def shortest (tie : Tie) (mantissa : Nat) (exponent : Int) : Decimal :=
  if mantissa = 0 then ⟨0, 0⟩
  else
    let grid := tenAbove (mantissa.log2 + 1 + exponent)
    (RoundingInterval.ofFinite mantissa exponent).search tie
      ((grid - leastExponent).toNat + 1) grid

end Double

end JsSyntax
