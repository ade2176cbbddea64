import BenchReport.Numeral.Decimal

/-!
# The shortest decimal of a magnitude

Of all decimals that read back as a given magnitude, the one with the fewest
digits, and of those the nearest. If any decimal of a certain number of digits
reads back, then so does one of the two neighbours of the magnitude on that
decimal grid, so for each number of digits only these two are tried, by reading
them. Seventeen digits suffice for every magnitude.
-/

namespace BenchReport

/-- Which of two equally near neighbours is taken. -/
inductive Tie where
  /-- The greater one. -/
  | up
  /-- The one whose last digit is even. -/
  | toEven
deriving DecidableEq, Repr

namespace Magnitude

/-- The exponent of the first digit of a positive magnitude. The smallest one
exceeds 10^-324, so multiplied by 10^324 none has lost its first digit. -/
def leadingExponent (m : Magnitude) : Int :=
  digitCount (m.units * Nat.pow 10 324 / unitsPerOne) - 325

/-- The neighbour that reads back as `m` on the grid of the multiples of
`10 ^ exponent`; if both do, the nearer one. -/
def onGrid? (tie : Tie) (m : Magnitude) (exponent : Int) : Option Decimal :=
  let num := m.units * Nat.pow 10 (-exponent).toNat
  let den := unitsPerOne * Nat.pow 10 exponent.toNat
  let below : Decimal := ⟨num / den, exponent⟩
  let above : Decimal := ⟨num / den + 1, exponent⟩
  if below.toMagnitude = m then
    if above.toMagnitude = m then
      match compare (2 * (num % den)) den, tie with
      | .lt, _ => some below
      | .gt, _ => some above
      | .eq, .up => some above
      | .eq, .toEven =>
        some (if below.coefficient % 2 = 0 then below else above)
    else some below
  else if above.toMagnitude = m then some above
  else none

/-- The magnitude written out in full: a unit is a whole number of 10^-1074. -/
def exactDecimal (m : Magnitude) : Decimal where
  coefficient := m.units * Nat.pow 5 1074
  exponent := -1074

/-- The shortest decimal that reads back as the positive, finite magnitude. -/
def shortest (tie : Tie) (m : Magnitude) : Decimal :=
  let tried := (List.range 17).findSome? fun (digits : Nat) =>
    m.onGrid? tie (m.leadingExponent - digits)
  tried.getD m.exactDecimal

end Magnitude

end BenchReport
