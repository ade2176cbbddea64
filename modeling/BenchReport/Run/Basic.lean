import BenchReport.Numeral.Read
import BenchReport.Numeral.Whole
import BenchReport.Run.Field
import BenchReport.Run.Setting

/-!
# Runs

What one log tells of a benchmark run. A log counts only if it says that the
result was verified and how long the run took; all else may be missing, and a
number that cannot be read counts as missing.
-/

namespace BenchReport

/-- A verified benchmark run. -/
structure Run where
  /-- What the run was started with. -/
  setting : Setting
  /-- The seconds that the start took. -/
  initializationTime : Option Double := none
  /-- The seconds that the benchmark took. -/
  elapsed : Double
deriving DecidableEq, Repr

/-- Why a log tells of no run. -/
inductive Rejection where
  /-- The log does not say that the result was verified. -/
  | unverified
  /-- The log does not say how long the run took. -/
  | missingElapsedTime
deriving DecidableEq, Repr

/-- The wording of the rejection. -/
def Rejection.message : Rejection → String
  | .unverified => "Verification failed"
  | .missingElapsedTime => "Elapsed time is missing"

namespace Run

/-- What the log of a verified run says. -/
def verificationMarker : String := "VERIFICATION SUCCESSFUL"

/-- Whether `word` stands somewhere in the text. -/
def occurs (word : List Char) : List Char → Bool
  | [] => word.isEmpty
  | c :: rest => word.isPrefixOf (c :: rest) || occurs word rest

/-- The count that a field of the log holds. -/
def count? (field : LogField) (log : List Char) : Option UInt32 :=
  (field.value? log).bind fun value => (Whole.readUInt32 value).toOption

/-- The number of seconds that a field of the log holds. -/
def seconds? (field : LogField) (log : List Char) : Option Double :=
  (field.value? log).bind fun value => (Double.read value).toOption

/-- The setting that a log tells of. -/
def settingOf (log : List Char) : Setting where
  problemClass := (LogField.problemClass.value? log).map String.ofList
  xstreams := count? .xstreams log
  threads := count? .threads log

/-- The run that a log tells of. -/
def ofLog (log : List Char) : Except Rejection Run :=
  if occurs verificationMarker.toList log then
    match seconds? .elapsed log with
    | none => .error .missingElapsedTime
    | some elapsed =>
      .ok { setting := settingOf log
            initializationTime := seconds? .initializationTime log
            elapsed }
  else .error .unverified

end Run

end BenchReport
