import BuildLang.Decimal.Shortest

/-!
# Styles of decimals

How the shortest digits of a number are laid out: with a point among them, or with
one digit before the point and an exponent behind.  A style is data, and one
function writes them all.
-/

set_option autoImplicit false

namespace BuildLang

/-- Numbers from `10 ^ least` up to `10 ^ above` are written without an exponent;
a missing bound admits all. -/
structure DecimalStyle where
  least : Option Int
  above : Option Int
  /-- Whether whole numbers get a fraction of zero where there is no exponent. -/
  wholeFraction : Bool
  /-- Which of two equally near shortest decimals is written. -/
  tie : TieRule
  /-- The sign of an exponent that is not negative. -/
  exponentSign : String
  infinityText : String
  undefinedText : String
  deriving Repr

namespace DecimalStyle

/-- Digits with an exponent: a point behind the first one if more follow. -/
def scientific (style : DecimalStyle) (digits : List Char) (exponent : Int) : String :=
  let mantissa := match digits with
    | [] => ""
    | [digit] => digit.toString
    | digit :: rest => digit.toString ++ "." ++ String.ofList rest
  let sign := if exponent < 0 then "-" else style.exponentSign
  mantissa ++ "e" ++ sign ++ toString exponent.natAbs

/-- Digits with a point, the first one standing for `10 ^ exponent`. -/
def positional (style : DecimalStyle) (digits : List Char) (exponent : Int) : String :=
  let ending := if style.wholeFraction then ".0" else ""
  if exponent < 0 then
    "0." ++ String.ofList (List.replicate (exponent.natAbs - 1) '0' ++ digits)
  else
    let wholeLength := exponent.toNat + 1
    if digits.length ≤ wholeLength then
      String.ofList (digits ++ List.replicate (wholeLength - digits.length) '0') ++ ending
    else
      String.ofList (digits.take wholeLength) ++ "." ++ String.ofList (digits.drop wholeLength)

def isPositional (style : DecimalStyle) (exponent : Int) : Bool :=
  style.least.all (fun least => least ≤ exponent) &&
    style.above.all (fun above => exponent < above)

def write (style : DecimalStyle) (number : Binary64) : String :=
  match number with
  | .undefined => style.undefinedText
  | .infinite negative => (if negative then "-" else "") ++ style.infinityText
  | .finite negative mantissa exponent =>
      let sign := if negative then "-" else ""
      if mantissa = 0 then sign ++ style.positional ['0'] 0
      else
        let (significand, scale) := Binary64.shortest style.tie mantissa exponent
        let digits := Nat.toDigits 10 significand
        let leading := scale + (digits.length : Int) - 1
        sign ++
          if style.isPositional leading then style.positional digits leading
          else style.scientific digits leading

def json : DecimalStyle :=
  { least := some (-5)
    above := some 16
    wholeFraction := true
    tie := .even
    exponentSign := "+"
    infinityText := "null"
    undefinedText := "null" }

def dump : DecimalStyle :=
  { least := some (-4)
    above := some 16
    wholeFraction := true
    tie := .greater
    exponentSign := ""
    infinityText := "inf"
    undefinedText := "NaN" }

/-- Numbers in running text: never with an exponent. -/
def plain : DecimalStyle :=
  { least := none
    above := none
    wholeFraction := false
    tie := .greater
    exponentSign := ""
    infinityText := "inf"
    undefinedText := "NaN" }

end DecimalStyle

end BuildLang
