import BenchReport.Numeral.Style
import BenchReport.Report.Entry

/-!
# JSON reports

A report is an array of flat objects, one member a line, two spaces for each
level. Text is escaped only where it has to be; what is no finite number is
null.
-/

namespace BenchReport.Json

/-- A value of a member. -/
inductive Scalar where
  /-- No value. -/
  | null
  /-- A number, by its characters. -/
  | number (text : List Char)
  /-- A text. -/
  | string (text : String)
deriving DecidableEq, Repr

/-- An object without objects inside, its members in order. -/
abbrev Object := List (String × Scalar)

/-- A character inside a string. -/
def escapedChar (c : Char) : List Char :=
  if c = '"' || c = '\\' then ['\\', c]
  else if c = '\x08' then ['\\', 'b']
  else if c = '\x0C' then ['\\', 'f']
  else if c = '\n' then ['\\', 'n']
  else if c = '\r' then ['\\', 'r']
  else if c = '\t' then ['\\', 't']
  else if c.toNat < 0x10 then "\\u000".toList ++ Nat.toDigits 16 c.toNat
  else if c.toNat < 0x20 then "\\u00".toList ++ Nat.toDigits 16 c.toNat
  else [c]

/-- A string. -/
def stringText (text : String) : List Char :=
  '"' :: text.toList.flatMap escapedChar ++ ['"']

/-- A value. -/
def Scalar.text : Scalar → List Char
  | .null => "null".toList
  | .number text => text
  | .string text => stringText text

/-- Items between brackets, each on its lines and after `indent`, with commas
between them; without items, the brackets alone. -/
def bracketed (opening closing : Char) (indent outer : List Char) :
    List (List Char) → List Char
  | [] => [opening, closing]
  | item :: items =>
    opening :: '\n' :: indent ++ item
      ++ items.flatMap (fun item => ',' :: '\n' :: indent ++ item)
      ++ '\n' :: outer ++ [closing]

/-- The text of an object that stands in an array. -/
def objectText (object : Object) : List Char :=
  bracketed '{' '}' "    ".toList "  ".toList
    (object.map fun (name, value) => stringText name ++
      ": ".toList ++ value.text)

/-- The text of an array of objects. -/
def arrayText (objects : List Object) : List Char :=
  bracketed '[' ']' "  ".toList [] (objects.map objectText)

/-- The value of a natural number. -/
def ofNat (n : Nat) : Scalar :=
  .number (Nat.toDigits 10 n)

/-- The value of a count that may be unknown. -/
def ofCount? : Option UInt32 → Scalar
  | none => .null
  | some n => ofNat n.toNat

/-- The value of a double. -/
def ofDouble (d : Double) : Scalar :=
  if d.isFinite then .number (d.toChars .json) else .null

/-- The object of an entry. -/
def ofEntry (e : Entry) : Object :=
  [(Entry.classColumn, (e.setting.problemClass.map Scalar.string).getD .null),
    (Entry.xstreamsColumn, ofCount? e.setting.xstreams),
    (Entry.threadsColumn, ofCount? e.setting.threads),
    (Entry.secondsColumn, ofDouble e.timeSeconds),
    (Entry.nanosColumn, ofNat e.timeNanos.toNat),
    (Entry.samplesColumn, ofNat e.samples)]

/-- The report of some entries. -/
def report (entries : List Entry) : List Char :=
  arrayText (entries.map ofEntry) ++ ['\n']

end BenchReport.Json
