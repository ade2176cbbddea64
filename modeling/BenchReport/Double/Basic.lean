/-!
# Doubles

The numbers that logs, reports and charts hold: signed magnitudes, and one value
for "not a number".

A magnitude is kept as its rank, its place in the increasing enumeration of all
magnitudes from zero to infinity. Comparing two of them is comparing ranks, and
the neighbour of one is the next rank. Its size is counted in units of 2^-1074,
the smallest positive magnitude, so every size is a natural number and every
exact result is a quotient of natural numbers. Infinity stands where the binade
after the last one would begin, at 2^1024; that is what makes rounding to
infinity the ordinary rounding to a neighbour.
-/

namespace BenchReport

/-- The sizes of one binade: it has `2 ^ 52` members. -/
def binadeSize : Nat := Nat.pow 2 52

/-- The rank of infinity, after the subnormal numbers and 2046 binades. -/
def infinityRank : Nat := 2047 * binadeSize

/-- The number of units, of 2^-1074 each, in the number one. -/
def unitsPerOne : Nat := Nat.pow 2 1074

/-- The size of a number without its sign. -/
structure Magnitude where
  /-- The place among all magnitudes, zero being the first. -/
  rank : Nat
  /-- Nothing lies above infinity. -/
  rank_le : rank ≤ infinityRank := by decide
deriving DecidableEq, Repr

namespace Magnitude

/-- The least magnitude. -/
def zero : Magnitude where
  rank := 0

/-- The greatest magnitude. -/
def infinity : Magnitude where
  rank := infinityRank

/-- The size of the magnitude of a rank, in units. In the two lowest binades the
ranks are the sizes; in each later one a step of the rank is twice as wide as in
the one before. -/
def unitsAt (rank : Nat) : Nat :=
  let doublings := rank / binadeSize - 1
  (rank - doublings * binadeSize) * Nat.pow 2 doublings

/-- The greatest rank whose magnitude is at most `units`. -/
def rankBelow (units : Nat) : Nat :=
  let doublings := units.log2 - 52
  doublings * binadeSize + units / Nat.pow 2 doublings

/-- The size in units. -/
def units (m : Magnitude) : Nat :=
  unitsAt m.rank

/-- The rank nearest to `num / den` units, an even one where two are
equally near. -/
def nearestRank (num den : Nat) : Nat :=
  let below := rankBelow (num / den)
  let twiceMiddle := (unitsAt below + unitsAt (below + 1)) * den
  if 2 * num < twiceMiddle then below
  else if twiceMiddle < 2 * num then below + 1
  else below + below % 2

/-- The magnitude nearest to `num / den` units; all that rounds past the last
finite magnitude is infinite. -/
def nearest (num den : Nat) : Magnitude where
  rank := min (nearestRank num den) infinityRank
  rank_le := Nat.min_le_right ..

/-- Whether the magnitude is a number and not infinity. -/
def isFinite (m : Magnitude) : Bool :=
  m.rank < infinityRank

end Magnitude

/-- A double: a signed magnitude, zero and infinity included, or no number. -/
inductive Double where
  /-- The result of an operation without an answer. -/
  | nan
  /-- A magnitude and its sign. -/
  | signed (negative : Bool) (magnitude : Magnitude)
deriving DecidableEq, Repr

namespace Double

/-- Zero with the sign of positive numbers. -/
def zero : Double :=
  .signed false .zero

/-- Zero with the sign of negative numbers. -/
def negativeZero : Double :=
  .signed true .zero

/-- Positive infinity. -/
def infinity : Double :=
  .signed false .infinity

/-- Negative infinity. -/
def negativeInfinity : Double :=
  .signed true .infinity

/-- The double nearest to `num / den`, which has the sign given even if it
is zero. -/
def ofQuotient (negative : Bool) (num den : Nat) : Double :=
  .signed negative (.nearest (num * unitsPerOne) den)

/-- The double nearest to a natural number. -/
def ofNat (n : Nat) : Double :=
  ofQuotient false n 1

/-- Whether the double is a number other than the infinities. -/
def isFinite : Double → Bool
  | .nan => false
  | .signed _ m => m.isFinite

/-- The place on the line of doubles, the two zeros at the origin; none where
there is no number. -/
def position? : Double → Option Int
  | .nan => none
  | .signed negative m => some (if negative then -(m.rank : Int) else m.rank)

end Double

end BenchReport
