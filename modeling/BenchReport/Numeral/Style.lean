import BenchReport.Numeral.Shortest

/-!
# How doubles are written

All written doubles show the shortest digits that read back. What differs from
one output to another is gathered in a `NumeralStyle`: how a tie between two
such decimals goes, which exponents are written out as zeros, whether a whole
number shows a fraction, and whether a positive exponent shows a sign.
-/

namespace BenchReport

/-- The choices of a written form of doubles. -/
structure NumeralStyle where
  /-- How a tie between two shortest decimals goes. -/
  tie : Tie := .up
  /-- Whether a number with this leading exponent is written
  without exponent. -/
  positional : Int → Bool := fun _ => true
  /-- What a whole number has after its digits. -/
  wholeEnd : List Char := []
  /-- What a positive exponent has before its digits. -/
  exponentPlus : List Char := []

namespace NumeralStyle

/-- Every number shows that it is no integer, by a fraction or by an exponent,
and numbers from 10^-4 to less than 10^16 are written without one. -/
def fractional : NumeralStyle where
  positional e := -4 ≤ e && e < 16
  wholeEnd := ['.', '0']

/-- The same with ties to the even digit, and with one more decimal place before
the exponent starts. -/
def tabular : NumeralStyle where
  tie := .toEven
  positional e := -5 ≤ e && e < 16
  wholeEnd := ['.', '0']

/-- The form of numbers in tables, with a sign on every exponent. -/
def json : NumeralStyle where
  tie := .toEven
  positional e := -5 ≤ e && e < 16
  wholeEnd := ['.', '0']
  exponentPlus := ['+']

/-- Never an exponent, and no fraction for whole numbers. -/
def plain : NumeralStyle where

/-- Writes digits, the first of them with the exponent `leading`, as a plain
decimal fraction. -/
def positionalText (style : NumeralStyle) (digits : List Char) (leading : Int) :
    List Char :=
  if leading < 0 then
    ['0', '.'] ++ List.replicate (-leading - 1).toNat '0' ++ digits
  else
    let whole := leading.toNat + 1
    if digits.length ≤ whole then
      digits ++ List.replicate (whole - digits.length) '0' ++ style.wholeEnd
    else digits.take whole ++ '.' :: digits.drop whole

/-- Writes digits with one of them before the point, and the exponent. -/
def scientificText (style : NumeralStyle) (digits : List Char) (leading : Int) :
    List Char :=
  let fraction := if digits.length ≤ 1 then [] else '.' :: digits.drop 1
  let sign := if leading < 0 then ['-'] else style.exponentPlus
  digits.take 1 ++ fraction ++ ['e'] ++ sign ++ Nat.toDigits 10 leading.natAbs

/-- The text of a positive decimal; zeros at its end are not digits. -/
def decimalText (style : NumeralStyle) (d : Decimal) : List Char :=
  let digits :=
    ((Nat.toDigits 10 d.coefficient).reverse.dropWhile (· = '0')).reverse
  if style.positional d.leadingExponent then
    style.positionalText digits d.leadingExponent
  else style.scientificText digits d.leadingExponent

/-- The text of a number without its sign. -/
def magnitudeText (style : NumeralStyle) (m : Magnitude) : List Char :=
  if m.rank = 0 then '0' :: style.wholeEnd
  else if m.isFinite then style.decimalText (m.shortest style.tie)
  else "inf".toList

end NumeralStyle

/-- The characters of a double in a style. -/
def Double.toChars (style : NumeralStyle) : Double → List Char
  | .nan => "NaN".toList
  | .signed true m => '-' :: style.magnitudeText m
  | .signed false m => style.magnitudeText m

/-- The text of a double in a style. -/
def Double.toText (style : NumeralStyle) (d : Double) : String :=
  .ofList (d.toChars style)

end BenchReport
