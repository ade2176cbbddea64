/-!
# Whole numerals

Reading a whole number digit by digit, in base ten or sixteen, up to a limit. A
plus sign may come first; a minus sign is a character like any other, so it is
refused. The first thing that goes wrong is the one that is told: a character
that is no digit, or the digit at which the value passes the limit.
-/

namespace BenchReport

/-- Why a text is no whole number of the size wanted. -/
inductive WholeError where
  /-- There is no character. -/
  | empty
  /-- A character is no digit, or a sign stands alone. -/
  | invalidDigit
  /-- The value passes the limit. -/
  | tooLarge
deriving DecidableEq, Repr

/-- The wording of the error. -/
def WholeError.message : WholeError → String
  | .empty => "cannot parse integer from empty string"
  | .invalidDigit => "invalid digit found in string"
  | .tooLarge => "number too large to fit in target type"

namespace Whole

/-- The value of an ASCII digit or letter in a base of at most 36. -/
def digitValue? (base : Nat) (c : Char) : Option Nat :=
  let value :=
    if '0' ≤ c ∧ c ≤ '9' then c.toNat - '0'.toNat
    else if 'a' ≤ c ∧ c ≤ 'z' then c.toNat - 'a'.toNat + 10
    else if 'A' ≤ c ∧ c ≤ 'Z' then c.toNat - 'A'.toNat + 10
    else base
  if value < base then some value else none

/-- Reads digits that follow those of `value`. -/
def readDigits (base limit value : Nat) : List Char → Except WholeError Nat
  | [] => .ok value
  | c :: rest =>
    match digitValue? base c with
    | none => .error .invalidDigit
    | some digit =>
      if base * value + digit < limit then
        readDigits base limit (base * value + digit) rest
      else .error .tooLarge

/-- Reads a numeral, with or without a plus sign, of a value less
than `limit`. -/
def read (base limit : Nat) : List Char → Except WholeError Nat
  | [] => .error .empty
  | ['+'] => .error .invalidDigit
  | '+' :: digits => readDigits base limit 0 digits
  | digits => readDigits base limit 0 digits

/-- Reads a decimal numeral of 32 bits. -/
def readUInt32 (cs : List Char) : Except WholeError UInt32 :=
  (read 10 UInt32.size cs).map UInt32.ofNat

/-- Reads a numeral of 32 bits, hexadecimal if `0x` comes first. -/
def readUInt32OrHex : List Char → Except WholeError UInt32
  | '0' :: 'x' :: digits => (read 16 UInt32.size digits).map UInt32.ofNat
  | cs => readUInt32 cs

end Whole

end BenchReport
