import BuildLang.Decimal.Reading

/-!
# Shortest decimals

The decimal with the fewest digits that is read as a given number, and of those
the one nearest to it; of two that are equally near, a rule for ties picks one.  All
comparisons are exact, in natural numbers.
-/

set_option autoImplicit false

namespace BuildLang

/-- Which of two equally near whole numbers is taken: the even one, or the greater. -/
inductive TieRule where
  | even
  | greater
  deriving DecidableEq, Repr

def TieRule.choose : TieRule → Nat → Nat
  | .even, lower => lower + lower % 2
  | .greater, lower => lower + 1

/-- The reals that are read as one positive number, as ratios over a common
denominator: its two ends, the number itself, and whether the ends belong to it. -/
structure RoundingInterval where
  low : Nat
  value : Nat
  high : Nat
  unit : Nat
  closed : Bool
  deriving Repr

namespace RoundingInterval

/-- The interval around `mantissa * 2 ^ exponent`.  Its ends lie half-way to the
neighbours, and the lower neighbour of a power of two is nearer. -/
def ofNumber (mantissa : Nat) (exponent : Int) : RoundingInterval :=
  let below :=
    if mantissa = Binary64.fullMantissa && Binary64.leastExponent < exponent then 1 else 2
  let shift := exponent - 2
  let factor := Nat.pow 2 shift.toNat
  ⟨(4 * mantissa - below) * factor, 4 * mantissa * factor, (4 * mantissa + 2) * factor,
    Nat.pow 2 (-shift).toNat, mantissa % 2 = 0⟩

/-- Whether the ratio of `dividend` to the unit lies in the interval. -/
def contains (interval : RoundingInterval) (dividend : Nat) : Bool :=
  if interval.closed then interval.low ≤ dividend && dividend ≤ interval.high
  else interval.low < dividend && dividend < interval.high

/-- The interval times `10 ^ (-exponent)`, so that the multiples of `10 ^ exponent`
become whole. -/
def onGrid (interval : RoundingInterval) (exponent : Int) : RoundingInterval :=
  let factor := Nat.pow 10 (-exponent).toNat
  { low := interval.low * factor
    value := interval.value * factor
    high := interval.high * factor
    unit := interval.unit * Nat.pow 10 exponent.toNat
    closed := interval.closed }

/-- The whole number in the interval that is nearest to its value. -/
def nearestWhole? (tie : TieRule) (interval : RoundingInterval) : Option Nat :=
  let lower := interval.value / interval.unit
  let upper := lower + 1
  let toLower := interval.value - lower * interval.unit
  let toUpper := upper * interval.unit - interval.value
  match interval.contains (lower * interval.unit), interval.contains (upper * interval.unit) with
  | false, false => none
  | true, false => some lower
  | false, true => some upper
  | true, true =>
      if toLower < toUpper then some lower
      else if toUpper < toLower then some upper
      else some (tie.choose lower)

/-- Tries ever finer grids, from multiples of `10 ^ exponent` on. -/
def shortestFrom (tie : TieRule) (interval : RoundingInterval) : Nat → Int → Nat × Int
  | 0, exponent => (0, exponent)
  | fuel + 1, exponent =>
      match (interval.onGrid exponent).nearestWhole? tie with
      | some digits => (digits, exponent)
      | none => shortestFrom tie interval fuel (exponent - 1)

end RoundingInterval

namespace Binary64

/-- A power of ten above a positive number: `log2 mantissa + 1 + exponent` bits make
no more decimal digits than this. -/
def decimalBound (mantissa : Nat) (exponent : Int) : Int :=
  ((mantissa.log2 : Int) + 2 + exponent) * 30103 / 100000 + 1

/-- The shortest decimal that is read as `mantissa * 2 ^ exponent`, as its digits and
their exponent.  Seventeen digits always suffice, and the bound is off by two at
most. -/
def shortest (tie : TieRule) (mantissa : Nat) (exponent : Int) : Nat × Int :=
  (RoundingInterval.ofNumber mantissa exponent).shortestFrom tie 22
    (decimalBound mantissa exponent)

end Binary64

end BuildLang
