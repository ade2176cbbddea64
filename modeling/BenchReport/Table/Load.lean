import BenchReport.Csv.Read
import BenchReport.FileTree.Access
import BenchReport.Numeral.Read
import BenchReport.Numeral.Whole
import BenchReport.Report.Entry
import BenchReport.Table.Basic
import BenchReport.Text.Blank
import BenchReport.Text.Utf8

/-!
# Loading tables

A table is read from a file of comma-separated records. The first record names
the columns; every other one is a row, and white space around its fields does
not count. Four columns are wanted, wherever they stand, and others are passed
over. If the names cannot be read, the first four columns are taken as they
come. The first fault in the order of the file is the one that is told.
-/

namespace BenchReport

/-- A column that a table has to have. -/
inductive Column where
  /-- The number of execution streams. -/
  | xstreams
  /-- The number of threads. -/
  | threads
  /-- The mean time in seconds. -/
  | seconds
  /-- The mean time in nanoseconds. -/
  | nanos
deriving DecidableEq, Repr

/-- Why a field holds no value of its column. -/
inductive CellError where
  /-- It is no whole number. -/
  | whole (error : WholeError)
  /-- It is no number. -/
  | double (error : DoubleError)
deriving DecidableEq, Repr

/-- Why a record is no row. -/
inductive RowError where
  /-- Two columns have the same name. -/
  | duplicate (column : Column)
  /-- A column is missing. -/
  | missing (column : Column)
  /-- There are too few columns. -/
  | tooFew (count : Nat)
  /-- A field holds no value of its column. -/
  | cell (index : Nat) (error : CellError)
deriving DecidableEq, Repr

/-- Why a file is no table. -/
inductive TableFault where
  /-- A record has another number of fields than the first one. -/
  | fieldCount (position : Csv.Position) (found expected : Nat)
  /-- A field is no text, from one of its bytes on. -/
  | notText (position : Csv.Position) (field byte : Nat)
  /-- A record is no row. -/
  | row (position : Csv.Position) (error : RowError)
deriving DecidableEq, Repr

/-- Why a table cannot be loaded. -/
inductive TableError where
  /-- The file cannot be read. -/
  | opening (path : Path) (error : FileError)
  /-- The file is no table. -/
  | malformed (path : Path) (fault : TableFault)
deriving DecidableEq, Repr

namespace Column

/-- The columns in the order in which they are asked for. -/
def all : List Column := [xstreams, threads, seconds, nanos]

/-- The name of the column. -/
def name : Column → String
  | xstreams => Entry.xstreamsColumn
  | threads => Entry.threadsColumn
  | seconds => Entry.secondsColumn
  | nanos => Entry.nanosColumn

/-- The column of a name. -/
def ofName? (name : List Char) : Option Column :=
  all.find? (·.name.toList = name)

end Column

/-- The wording of the error. -/
def CellError.message : CellError → String
  | whole e => e.message
  | double e => e.message

/-- The wording of the error. -/
def RowError.message : RowError → String
  | duplicate column => "duplicate field `" ++ column.name ++ "`"
  | missing column => "missing field `" ++ column.name ++ "`"
  | tooFew count =>
    "invalid length " ++ count.repr ++ ", expected struct Row with 4 elements"
  | cell index e => "field " ++ index.repr ++ ": " ++ e.message

/-- The position in words. -/
def Csv.Position.text (p : Csv.Position) : String :=
  "record " ++ p.record.repr ++ " (line: " ++ p.line.repr ++ ", byte: " ++
    p.byte.repr ++ ")"

/-- The wording of the fault. -/
def TableFault.message : TableFault → String
  | fieldCount p found expected =>
    "CSV error: " ++ p.text ++ ": found record with " ++ found.repr
      ++ " fields, but the previous record has " ++ expected.repr ++ " fields"
  | notText p field byte =>
    "CSV parse error: record " ++ p.record.repr ++ " (line " ++ p.line.repr
      ++ ", field: " ++ field.repr ++ ", byte: " ++ p.byte.repr
      ++ "): invalid utf-8: invalid UTF-8 in field " ++ field.repr
      ++ " near byte index " ++ byte.repr
  | row p e => "CSV deserialize error: " ++ p.text ++ ": " ++ e.message

/-- The wording of the error. -/
def TableError.message : TableError → String
  | opening path e => "Opening table " ++ path.quoted ++ ": " ++ e.message
  | malformed path fault =>
    "Parsing table " ++ path.quoted ++ ": " ++ fault.message

/-- The cells of a row that have been read so far. -/
structure Cells where
  /-- The number of execution streams. -/
  xstreams : Option UInt32 := none
  /-- The number of threads. -/
  threads : Option UInt32 := none
  /-- The mean time in seconds. -/
  seconds : Option Double := none
  /-- The mean time in nanoseconds. -/
  nanos : Option Double := none

namespace Cells

/-- Whether the cell of a column has been read. -/
def has (cells : Cells) : Column → Bool
  | .xstreams => cells.xstreams.isSome
  | .threads => cells.threads.isSome
  | .seconds => cells.seconds.isSome
  | .nanos => cells.nanos.isSome

/-- The cells with that of one more column, read from a field. -/
def insert (cells : Cells) (field : List Char) : Column → Except CellError Cells
  | .xstreams =>
    match Whole.readUInt32OrHex field with
    | .ok n => .ok { cells with xstreams := some n }
    | .error e => .error (.whole e)
  | .threads =>
    match Whole.readUInt32OrHex field with
    | .ok n => .ok { cells with threads := some n }
    | .error e => .error (.whole e)
  | .seconds =>
    match Double.read field with
    | .ok x => .ok { cells with seconds := some x }
    | .error e => .error (.double e)
  | .nanos =>
    match Double.read field with
    | .ok x => .ok { cells with nanos := some x }
    | .error e => .error (.double e)

/-- The row of the cells, or the first column without one. -/
def complete (cells : Cells) : Except Column Timing :=
  match cells.xstreams, cells.threads, cells.seconds, cells.nanos with
  | none, _, _, _ => .error .xstreams
  | _, none, _, _ => .error .threads
  | _, _, none, _ => .error .seconds
  | _, _, _, none => .error .nanos
  | some xstreams, some threads, some seconds, some nanos =>
    .ok { xstreams, threads, seconds, nanos }

/-- Reads the fields from the one with some index on, each for the column given
with it. -/
def readAll (cells : Cells) (index : Nat) :
    List (Option Column × List Char) → Except RowError Cells
  | [] => .ok cells
  | (none, _) :: rest => readAll cells (index + 1) rest
  | (some column, field) :: rest =>
    if cells.has column then .error (.duplicate column)
    else
      match cells.insert field column with
      | .error e => .error (.cell index e)
      | .ok cells => readAll cells (index + 1) rest

end Cells

namespace Table

/-- Whether the byte is white space in ASCII. -/
def isBlankByte (b : UInt8) : Bool :=
  b = 0x20 || b = 0x09 || b = 0x0A || b = 0x0C || b = 0x0D

/-- The texts of fields from the one with some index on, without white space
around them, or the first field that is none and where it breaks. -/
def fieldTexts (index : Nat) :
    List (List UInt8) → Except (Nat × Nat) (List (List Char))
  | [] => .ok []
  | field :: rest =>
    match Utf8.decode (Text.trimBoth isBlankByte field) with
    | .error byte => .error (index, byte)
    | .ok text => (fieldTexts (index + 1) rest).map (Text.trim text :: ·)

/-- The columns in the order of a file, none where the name is unknown. -/
inductive Layout where
  /-- The columns have names. -/
  | named (columns : List (Option Column))
  /-- The columns wanted come first. -/
  | positional
deriving DecidableEq, Repr

/-- The layout that the first record of a file gives. -/
def layout (header : List (List UInt8)) : Layout :=
  match fieldTexts 0 header with
  | .ok names => .named (names.map Column.ofName?)
  | .error _ => .positional

/-- The row of some fields. -/
def row (layout : Layout) (fields : List (List Char)) :
    Except RowError Timing :=
  match layout with
  | .named columns =>
    match Cells.readAll {} 0 (columns.zip fields) with
    | .error e => .error e
    | .ok cells =>
      match cells.complete with
      | .ok timing => .ok timing
      | .error column => .error (.missing column)
  | .positional =>
    match Cells.readAll {} 0 ((Column.all.map some).zip fields) with
    | .error e => .error e
    | .ok cells =>
      match cells.complete with
      | .ok timing => .ok timing
      | .error _ => .error (.tooFew fields.length)

/-- The row of a record of a file whose records have `width` fields. -/
def timing (width : Nat) (layout : Layout) (record : Csv.Record) :
    Except TableFault Timing :=
  if record.fields.length ≠ width then
    .error (.fieldCount record.position record.fields.length width)
  else
    match fieldTexts 0 record.fields with
    | .error (field, byte) => .error (.notText record.position field byte)
    | .ok fields =>
      match row layout fields with
      | .ok timing => .ok timing
      | .error e => .error (.row record.position e)

/-- The rows of the records of a file. -/
def timings : List Csv.Record → Except TableFault (List Timing)
  | [] => .ok []
  | header :: records =>
    records.mapM (timing header.fields.length (layout header.fields))

/-- The path of the table of a case. -/
def path (directory : Path) (case : String) : Path :=
  directory.join (case ++ ".csv")

/-- Loads the table of a case. What can be opened and then not be read, such as
a directory, is a table without rows. -/
def load (tree : FileTree) (directory : Path) (case : String) :
    Except TableError Table :=
  let path := path directory case
  match tree.read path with
  | .error e => if e.opens then .ok ⟨case, []⟩ else .error (.opening path e)
  | .ok bytes =>
    match timings (Csv.records bytes) with
    | .ok rows => .ok ⟨case, rows⟩
    | .error fault => .error (.malformed path fault)

end Table

end BenchReport
