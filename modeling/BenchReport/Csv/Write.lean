/-!
# Writing comma-separated records

A field is put between quotes only if it holds a comma, a quote or a line end;
a quote inside is written twice. A record ends with a line feed.
-/

namespace BenchReport.Csv

/-- Whether the character can stand only in a quoted field. -/
def needsQuotes (c : Char) : Bool :=
  c = ',' || c = '"' || c = '\r' || c = '\n'

/-- The characters of a quoted field between its quotes. -/
def doubleQuotes (cs : List Char) : List Char :=
  cs.flatMap fun c => if c = '"' then ['"', '"'] else [c]

/-- The text of a field. -/
def fieldText (field : List Char) : List Char :=
  if field.any needsQuotes then '"' :: doubleQuotes field ++ ['"'] else field

/-- The text of a record. -/
def recordText (fields : List (List Char)) : List Char :=
  [','].intercalate (fields.map fieldText) ++ ['\n']

end BenchReport.Csv
