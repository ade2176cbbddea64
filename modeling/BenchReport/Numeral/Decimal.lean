import BenchReport.Double.Basic

/-!
# Decimals

A decimal is a natural number of powers of ten, and it stands for the double
nearest to it. Decimals beyond all doubles are sorted out by their leading
exponent, so that no power of ten is computed that the answer does not need.
-/

namespace BenchReport

/-- The number `coefficient * 10 ^ exponent`. -/
structure Decimal where
  /-- The digits, read as one whole number. -/
  coefficient : Nat
  /-- The power of ten that the coefficient counts. -/
  exponent : Int
deriving DecidableEq, Repr

/-- The number of decimal digits of a natural number; zero has one. -/
def digitCount (n : Nat) : Nat :=
  (Nat.toDigits 10 n).length

namespace Decimal

/-- The exponent of the first digit: a decimal other than zero is at least ten
to this power and less than ten times as much. -/
def leadingExponent (d : Decimal) : Int :=
  d.exponent + digitCount d.coefficient - 1

/-- The magnitude nearest to the decimal. Below 10^-324 lies less than half the
smallest positive magnitude, and 10^309 is past infinity. -/
def toMagnitude (d : Decimal) : Magnitude :=
  if d.coefficient = 0 || d.leadingExponent < -324 then .zero
  else if 309 ≤ d.leadingExponent then .infinity
  else
    .nearest (d.coefficient * Nat.pow 10 d.exponent.toNat * unitsPerOne)
      (Nat.pow 10 (-d.exponent).toNat)

end Decimal

end BenchReport
