/-!
# Binary floating point

The numbers of the 64-bit binary format: a mantissa below `2 ^ 53` times a power of
two, the two infinities, and the result that is no number.  Ratios are rounded to
the nearest of them, and a tie goes to the even mantissa.
-/

set_option autoImplicit false

namespace BuildLang

/-- A finite number is `mantissa * 2 ^ exponent`, negated if `negative` holds; zero
keeps its sign. -/
inductive Binary64 where
  | finite (negative : Bool) (mantissa : Nat) (exponent : Int)
  | infinite (negative : Bool)
  | undefined
  deriving DecidableEq, Repr

namespace Binary64

/-- The smallest exponent, that of the numbers next to zero. -/
def leastExponent : Int := -1074

/-- The exponent of the largest finite numbers. -/
def greatestExponent : Int := 971

/-- `2 ^ 52`, the least mantissa of a number that is not next to zero. -/
def fullMantissa : Nat := 4503599627370496

def zero (negative : Bool) : Binary64 :=
  .finite negative 0 leastExponent

/-- The nearest natural number to a quotient, the even one of two. -/
def roundQuotient (dividend divisor : Nat) : Nat :=
  let quotient := dividend / divisor
  let doubled := 2 * (dividend % divisor)
  if divisor < doubled then quotient + 1
  else if doubled = divisor then quotient + quotient % 2
  else quotient

/-- The numerator and denominator of a ratio times `2 ^ shift`. -/
def scale (shift : Int) (dividend divisor : Nat) : Nat × Nat :=
  (dividend * Nat.pow 2 shift.toNat, divisor * Nat.pow 2 (-shift).toNat)

/-- The greatest power of two that is no more than a positive ratio. -/
def floorLog2 (dividend divisor : Nat) : Int :=
  let estimate : Int := (dividend.log2 : Int) - (divisor.log2 : Int)
  let (scaled, unit) := scale (-estimate) dividend divisor
  if unit ≤ scaled then estimate else estimate - 1

/-- The number nearest to a ratio with a positive denominator. -/
def ofRatio (negative : Bool) (dividend divisor : Nat) : Binary64 :=
  if dividend = 0 then zero negative
  else
    let exponent := max (floorLog2 dividend divisor - 52) leastExponent
    let (scaled, unit) := scale (-exponent) dividend divisor
    let mantissa := roundQuotient scaled unit
    let (mantissa, exponent) :=
      if mantissa = 2 * fullMantissa then (fullMantissa, exponent + 1) else (mantissa, exponent)
    if greatestExponent < exponent then .infinite negative
    else .finite negative mantissa exponent

/-- Equality of numbers: both zeros are equal, and what is no number equals
nothing. -/
def equals : Binary64 → Binary64 → Bool
  | .finite _ 0 _, .finite _ 0 _ => true
  | .finite negative mantissa exponent, .finite negative' mantissa' exponent' =>
      negative = negative' && mantissa = mantissa' && exponent = exponent'
  | .infinite negative, .infinite negative' => negative = negative'
  | _, _ => false

end Binary64

end BuildLang
