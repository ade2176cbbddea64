import BenchReport.Numeral.Decimal

/-!
# Reading doubles

The grammar of a number with a fraction: an optional sign, then either digits
with at most one point among or beside them and an optional exponent, or one of
the words for infinity and for no number, in any letter case. All digits are
ASCII. The value is the nearest double.
-/

namespace BenchReport

/-- Why a text is no double. -/
inductive DoubleError where
  /-- There is no character. -/
  | empty
  /-- The text does not follow the grammar. -/
  | invalid
deriving DecidableEq, Repr

/-- The wording of the error. -/
def DoubleError.message : DoubleError → String
  | .empty => "cannot parse float from empty string"
  | .invalid => "invalid float literal"

namespace Decimal

/-- Reads the exponent that ends a numeral; nothing is the exponent zero. -/
def readExponent? : List Char → Option Int
  | [] => some 0
  | mark :: rest =>
    let (negative, digits) := match rest with
      | '-' :: digits => (true, digits)
      | '+' :: digits => (false, digits)
      | digits => (false, digits)
    let value : Int := Nat.ofDigitChars 10 digits 0
    if (mark = 'e' || mark = 'E') && !digits.isEmpty
      && digits.all Char.isDigit then
      some (if negative then -value else value)
    else none

/-- Reads an unsigned numeral, all of the text. -/
def read? (cs : List Char) : Option Decimal :=
  let whole := cs.takeWhile Char.isDigit
  let afterWhole := cs.dropWhile Char.isDigit
  let (fraction, afterFraction) := match afterWhole with
    | '.' :: rest => (rest.takeWhile Char.isDigit, rest.dropWhile Char.isDigit)
    | rest => ([], rest)
  if whole.isEmpty && fraction.isEmpty then none
  else
    (readExponent? afterFraction).map fun exponent =>
      { coefficient := Nat.ofDigitChars 10 (whole ++ fraction) 0
        exponent := exponent - fraction.length }

end Decimal

namespace Double

/-- The double of a word such as `inf`, in lower case. -/
def ofWord? (negative : Bool) (word : List Char) : Option Double :=
  if word = "inf".toList || word = "infinity".toList then
    some (.signed negative .infinity)
  else if word = "nan".toList then some .nan
  else none

/-- Reads what follows the sign. -/
def readUnsigned (negative : Bool) (cs : List Char) :
    Except DoubleError Double :=
  match Decimal.read? cs with
  | some decimal => .ok (.signed negative decimal.toMagnitude)
  | none =>
    match ofWord? negative (cs.map Char.toLower) with
    | some value => .ok value
    | none => .error .invalid

/-- Reads a double, all of the text. -/
def read : List Char → Except DoubleError Double
  | [] => .error .empty
  | '-' :: rest => readUnsigned true rest
  | '+' :: rest => readUnsigned false rest
  | cs => readUnsigned false cs

end Double

end BenchReport
