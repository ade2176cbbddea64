import BenchReport.Double.Basic

/-!
# Numerals with two decimal places

The hundredths of a number are counted exactly, a half going to the even count,
and the count is written with a point before its last two digits. The sign
stays, also before a zero. What is no finite number is written as a word.
-/

namespace BenchReport

/-- The integer nearest to `num / den`, the even one of two. -/
def roundHalfEven (num den : Nat) : Nat :=
  let below := num / den
  let twiceRest := 2 * (num % den)
  if twiceRest < den then below
  else if den < twiceRest then below + 1
  else below + below % 2

/-- The number of hundredths in a magnitude, to the nearest. -/
def Magnitude.hundredths (m : Magnitude) : Nat :=
  roundHalfEven (100 * m.units) unitsPerOne

/-- The numeral of a number of hundredths, with both decimal places. -/
def hundredthsText (count : Nat) : List Char :=
  Nat.toDigits 10 (count / 100) ++
    ['.', Nat.digitChar (count / 10 % 10), Nat.digitChar (count % 10)]

/-- The characters of a double in hundredths, to the nearest. -/
def Double.toHundredths : Double → List Char
  | .nan => "NaN".toList
  | .signed negative m =>
    let text := if m.isFinite then hundredthsText m.hundredths else "inf".toList
    if negative then '-' :: text else text

end BenchReport
