import BuildLang.Decimal.Binary64

/-!
# Reading decimals

A decimal is a sign, digits with at most one point among them, and an exponent;
either side of the point may be empty, but not both.  The words for infinity and
for no number are read in any letter case.
-/

set_option autoImplicit false

namespace BuildLang

/-- The number `digits * 10 ^ exponent`, negated if `negative` holds. -/
structure Decimal where
  negative : Bool
  digits : Nat
  exponent : Int
  deriving DecidableEq, Repr

namespace Decimal

def isDigit (c : Char) : Bool :=
  '0' ≤ c && c ≤ '9'

def natOfDigits (digits : List Char) : Nat :=
  digits.foldl (fun number digit => 10 * number + (digit.toNat - '0'.toNat)) 0

def digitCount (number : Nat) : Nat :=
  (Nat.toDigits 10 number).length

/-- A sign at the front, and what stands behind it. -/
def splitSign : List Char → Bool × List Char
  | [] => (false, [])
  | c :: rest =>
      if c = '-' then (true, rest) else if c = '+' then (false, rest) else (false, c :: rest)

/-- A text of digits alone, at least one. -/
def readDigits? (text : List Char) : Option Nat :=
  if text.isEmpty || !text.all isDigit then none else some (natOfDigits text)

/-- An exponent mark with its exponent, or nothing at all. -/
def readExponent? : List Char → Option Int
  | [] => some 0
  | c :: rest =>
      if c = 'e' || c = 'E' then
        let (negative, digits) := splitSign rest
        (readDigits? digits).map fun exponent =>
          if negative then -(exponent : Int) else (exponent : Int)
      else none

/-- The digits behind a point at the front, and what stands behind those. -/
def splitFraction : List Char → List Char × List Char
  | [] => ([], [])
  | c :: rest =>
      if c = '.' then (rest.takeWhile isDigit, rest.dropWhile isDigit) else ([], c :: rest)

/-- A decimal without a sign. -/
def readUnsigned? (negative : Bool) (text : List Char) : Option Decimal :=
  let whole := text.takeWhile isDigit
  let (fraction, rest) := splitFraction (text.dropWhile isDigit)
  if whole.isEmpty && fraction.isEmpty then none
  else (readExponent? rest).map fun exponent =>
    ⟨negative, natOfDigits (whole ++ fraction), exponent - fraction.length⟩

/-- The 64-bit number nearest to a decimal.  Decimals far out of its range are
decided by their size alone. -/
def toBinary64 (decimal : Decimal) : Binary64 :=
  let magnitude := (digitCount decimal.digits : Int) + decimal.exponent
  if decimal.digits = 0 || magnitude < -400 then .zero decimal.negative
  else if 400 < magnitude then .infinite decimal.negative
  else .ofRatio decimal.negative (decimal.digits * Nat.pow 10 decimal.exponent.toNat)
    (Nat.pow 10 (-decimal.exponent).toNat)

end Decimal

namespace Binary64

/-- The number a text denotes, if it denotes one. -/
def read? (text : String) : Option Binary64 :=
  let (negative, rest) := Decimal.splitSign text.toList
  let word := (String.ofList rest).toLower
  if word = "inf" || word = "infinity" then some (.infinite negative)
  else if word = "nan" then some .undefined
  else (Decimal.readUnsigned? negative rest).map Decimal.toBinary64

end Binary64

end BuildLang
