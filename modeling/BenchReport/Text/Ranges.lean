/-!
# Classes of characters

A class is the list of its ranges of code points, ends included. The tables of
the other modules follow Unicode 16.
-/

namespace BenchReport.Text

/-- Ranges of code points, each from its first to its last. -/
abbrev Ranges := List (Nat × Nat)

/-- Whether the character lies in one of the ranges. -/
def Ranges.holds (ranges : Ranges) (c : Char) : Bool :=
  ranges.any fun (first, last) => first ≤ c.toNat && c.toNat ≤ last

end BenchReport.Text
