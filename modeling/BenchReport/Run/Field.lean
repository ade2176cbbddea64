import BenchReport.Text.Blank
import BenchReport.Text.Word

/-!
# Labelled fields of a log

A log names what it reports: a label, white space, the value. A field is found
at the first place where all of it stands, so a label that breaks off, or has no
value after it, does not hide a later one. The value is the longest run of its
characters; no other run at that place has to be tried, because no field
continues with a character that could belong to the run before it.
-/

namespace BenchReport

/-- How a value is labelled in a log. -/
structure LogField where
  /-- The parts of the label, each of them followed by white space. -/
  label : List String
  /-- Whether a character can belong to the value. -/
  holds : Char → Bool
  /-- What has to follow the value. -/
  ending : String := ""

namespace LogField

/-- What follows the white space at the beginning of a text, if there is any. -/
def afterBlank? : List Char → Option (List Char)
  | [] => none
  | c :: rest =>
    if Text.isBlank c then some (rest.dropWhile Text.isBlank) else none

/-- What follows the label at the beginning of a text. -/
def afterLabel? : List String → List Char → Option (List Char)
  | [], cs => some cs
  | part :: parts, cs =>
    ((part.toList.isPrefixOf? cs).bind afterBlank?).bind (afterLabel? parts)

/-- The value of the field if all of it stands at the beginning of the text. -/
def valueHere? (field : LogField) (cs : List Char) : Option (List Char) :=
  match afterLabel? field.label cs with
  | none => none
  | some rest =>
    let value := rest.takeWhile field.holds
    if !value.isEmpty && field.ending.toList.isPrefixOf
      (rest.dropWhile field.holds) then
      some value
    else none

/-- The value of the field at the first place where it stands. -/
def value? (field : LogField) : List Char → Option (List Char)
  | [] => none
  | c :: rest =>
    match field.valueHere? (c :: rest) with
    | some value => some value
    | none => field.value? rest

/-- Whether a character can belong to a number with a fraction. -/
def isFractional (c : Char) : Bool :=
  Text.isDigit c || c = '.'

/-- The size class of the problem. -/
def problemClass : LogField where
  label := ["Class", "="]
  holds := Text.isWord

/-- The number of execution streams. -/
def xstreams : LogField where
  label := ["Number of available xstreams:"]
  holds := Text.isDigit

/-- The number of user-level threads. -/
def threads : LogField where
  label := ["Number of available threads:"]
  holds := Text.isDigit

/-- The time that the start took, in seconds. -/
def initializationTime : LogField where
  label := ["Initialization time ="]
  holds := isFractional
  ending := " seconds"

/-- The time that the benchmark took, in seconds. -/
def elapsed : LogField where
  label := ["Time in seconds ="]
  holds := isFractional

end LogField

end BenchReport
