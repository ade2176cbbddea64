import BenchReport.Double.Basic

/-!
# Arithmetic of doubles

Each operation computes the exact result on units and rounds it once. What has
no number for an answer, and what involves an infinity, is settled before.

Comparison goes by position: it fails for whatever is no number, and it holds
the two zeros equal.
-/

namespace BenchReport.Double

/-- The double of the other sign. -/
def neg : Double → Double
  | .nan => .nan
  | .signed negative m => .signed (!negative) m

instance : Neg Double := ⟨neg⟩

/-- The size in units, with its sign; infinity counts as 2^1024. -/
def signedUnits (negative : Bool) (m : Magnitude) : Int :=
  if negative then -(m.units : Int) else m.units

/-- The sum, rounded to the nearest double. Two opposite numbers add up to the
positive zero. -/
def add : Double → Double → Double
  | .nan, _ => .nan
  | _, .nan => .nan
  | .signed s a, .signed t b =>
    if a.isFinite && b.isFinite then
      let total := signedUnits s a + signedUnits t b
      if total = 0 then .signed (s && t) .zero
      else .signed (total < 0) (.nearest total.natAbs 1)
    else if a.isFinite then .signed t b
    else if b.isFinite || s == t then .signed s a
    else .nan

instance : Add Double := ⟨add⟩

/-- The difference, rounded to the nearest double. -/
def sub (a b : Double) : Double :=
  a + -b

instance : Sub Double := ⟨sub⟩

/-- The product, rounded to the nearest double. -/
def mul : Double → Double → Double
  | .nan, _ => .nan
  | _, .nan => .nan
  | .signed s a, .signed t b =>
    if a.isFinite && b.isFinite then
      .signed (s != t) (.nearest (a.units * b.units) unitsPerOne)
    else if a.rank = 0 || b.rank = 0 then .nan
    else .signed (s != t) .infinity

instance : Mul Double := ⟨mul⟩

/-- The quotient, rounded to the nearest double. -/
def div : Double → Double → Double
  | .nan, _ => .nan
  | _, .nan => .nan
  | .signed s a, .signed t b =>
    if a.isFinite && b.isFinite then
      if b.rank = 0 then
        if a.rank = 0 then .nan else .signed (s != t) .infinity
      else .signed (s != t) (.nearest (a.units * unitsPerOne) b.units)
    else if a.isFinite then .signed (s != t) .zero
    else if b.isFinite then .signed (s != t) .infinity
    else .nan

instance : Div Double := ⟨div⟩

/-- Whether `a` is a number less than the number `b`. -/
def lt (a b : Double) : Bool :=
  match a.position?, b.position? with
  | some i, some j => i < j
  | _, _ => false

/-- Whether `a` is a number that is at most the number `b`. -/
def le (a b : Double) : Bool :=
  match a.position?, b.position? with
  | some i, some j => i ≤ j
  | _, _ => false

instance : LT Double := ⟨fun a b => a.lt b = true⟩

instance : LE Double := ⟨fun a b => a.le b = true⟩

instance (a b : Double) : Decidable (a < b) :=
  inferInstanceAs (Decidable (a.lt b = true))

instance (a b : Double) : Decidable (a ≤ b) :=
  inferInstanceAs (Decidable (a.le b = true))

/-- The lesser of two numbers, the first of two equal ones, and the number where
only one of them is one. -/
def min (a b : Double) : Double :=
  match a, b with
  | .nan, b => b
  | a, .nan => a
  | a, b => if b < a then b else a

/-- The greater of two numbers, the first of two equal ones, and the number
where only one of them is one. -/
def max (a b : Double) : Double :=
  match a, b with
  | .nan, b => b
  | a, .nan => a
  | a, b => if a < b then b else a

/-- The number without its sign. -/
def abs : Double → Double
  | .nan => .nan
  | .signed _ m => .signed false m

/-- The integer nearest to a magnitude, a half going up. -/
def roundedWhole (m : Magnitude) : Nat :=
  (2 * m.units + unitsPerOne) / (2 * unitsPerOne)

/-- The nearest 64-bit count: a half goes away from zero, what is too large
becomes the greatest count, and zero stands for the negative numbers and for no
number. -/
def toUInt64 : Double → UInt64
  | .nan => 0
  | .signed true _ => 0
  | .signed false m => .ofNat (Nat.min (roundedWhole m) (UInt64.size - 1))

end BenchReport.Double
