/-!
# Reading comma-separated records

A file is cut into records, and records into fields, byte by byte. A field that
begins with a quote extends to the next quote that is not doubled, over commas
and line ends; what follows that quote up to the end of the field is kept as it
is. A carriage return and a line feed both end a record, and records do not
begin with either, so blank lines are no records. Every sequence of bytes is
some sequence of records.

A record is found at the position where the record before it ended.
-/

namespace BenchReport.Csv

/-- The byte that separates fields. -/
def comma : UInt8 := 0x2C

/-- The byte around quoted fields. -/
def quote : UInt8 := 0x22

/-- The line feed. -/
def lineFeed : UInt8 := 0x0A

/-- The carriage return. -/
def carriageReturn : UInt8 := 0x0D

/-- Whether the byte ends a record. -/
def isLineEnd (b : UInt8) : Bool :=
  b = lineFeed || b = carriageReturn

/-- What ends a field. -/
inductive Ending where
  /-- A comma: another field follows. -/
  | comma
  /-- A line end: the record ends too. -/
  | line
  /-- The end of the file. -/
  | file
deriving DecidableEq, Repr

/-- A field as it is read from a file. -/
structure FieldRead where
  /-- The bytes of the field, without quotes around them. -/
  content : List UInt8
  /-- What ends the field. -/
  ending : Ending
  /-- The bytes that were read, those of the ending included. -/
  raw : List UInt8
  /-- The bytes after them. -/
  rest : List UInt8
deriving DecidableEq, Repr

/-- The field with one more byte in front. -/
def FieldRead.cons (b : UInt8) (r : FieldRead) : FieldRead :=
  { r with content := b :: r.content, raw := b :: r.raw }

/-- Reads a field without quotes, or what follows the quotes of one. -/
def readPlain : List UInt8 → FieldRead
  | [] => ⟨[], .file, [], []⟩
  | b :: rest =>
    if b = comma then ⟨[], .comma, [b], rest⟩
    else if isLineEnd b then ⟨[], .line, [b], rest⟩
    else (readPlain rest).cons b

/-- Reads a quoted field after its first quote. -/
def readQuoted : List UInt8 → FieldRead
  | [] => ⟨[], .file, [], []⟩
  | [b] => if b = quote then ⟨[], .file, [b], []⟩ else ⟨[b], .file, [b], []⟩
  | b :: next :: rest =>
    if b = quote then
      if next = quote then
        let r := readQuoted rest
        { r with content := quote :: r.content, raw := b :: next :: r.raw }
      else
        let r := readPlain (next :: rest)
        { r with raw := b :: r.raw }
    else (readQuoted (next :: rest)).cons b

/-- Reads the field at the beginning of some bytes. -/
def readField : List UInt8 → FieldRead
  | [] => readPlain []
  | b :: rest =>
    if b = quote then
      let r := readQuoted rest
      { r with raw := b :: r.raw }
    else readPlain (b :: rest)

theorem raw_readPlain_append (bytes : List UInt8) :
    (readPlain bytes).raw ++ (readPlain bytes).rest = bytes := by
  induction bytes with
  | nil => rfl
  | cons b rest ih =>
    simp only [readPlain]
    split
    · rfl
    · split
      · rfl
      · simpa [FieldRead.cons] using ih

theorem raw_readQuoted_append (bytes : List UInt8) :
    (readQuoted bytes).raw ++ (readQuoted bytes).rest = bytes := by
  fun_induction readQuoted bytes with
  | case1 => rfl
  | case2 => rfl
  | case3 => rfl
  | case4 rest r ih => exact congrArg (quote :: quote :: ·) ih
  | case5 next rest hnext r =>
    exact congrArg (quote :: ·) (raw_readPlain_append (next :: rest))
  | case6 b next rest hb ih => exact congrArg (b :: ·) ih

theorem raw_readField_append (bytes : List UInt8) :
    (readField bytes).raw ++ (readField bytes).rest = bytes := by
  cases bytes with
  | nil => rfl
  | cons b rest =>
    simp only [readField]
    split
    · simp [raw_readQuoted_append]
    · exact raw_readPlain_append _

theorem raw_readPlain_ne_nil {bytes : List UInt8}
    (h : (readPlain bytes).ending ≠ .file) :
    (readPlain bytes).raw ≠ [] := by
  cases bytes with
  | nil => simp [readPlain] at h
  | cons b rest =>
    simp only [readPlain]
    split
    · simp
    · split <;> simp [FieldRead.cons]

theorem raw_readField_ne_nil {bytes : List UInt8}
    (h : (readField bytes).ending ≠ .file) :
    (readField bytes).raw ≠ [] := by
  cases bytes with
  | nil => simp [readField, readPlain] at h
  | cons b rest =>
    simp only [readField] at h ⊢
    split
    · simp
    · next hb => exact raw_readPlain_ne_nil (by simpa [hb] using h)

/-- A field that the file does not end with leaves fewer bytes. -/
theorem length_rest_readField_lt {bytes : List UInt8}
    (h : (readField bytes).ending ≠ .file) :
    (readField bytes).rest.length < bytes.length := by
  have happend := congrArg List.length (raw_readField_append bytes)
  have hpos := List.length_pos_iff.2 (raw_readField_ne_nil h)
  simp only [List.length_append] at happend
  omega

/-- The bytes left after a field are at most those before it. -/
theorem length_rest_readField_le (bytes : List UInt8) :
    (readField bytes).rest.length ≤ bytes.length := by
  have happend := congrArg List.length (raw_readField_append bytes)
  simp only [List.length_append] at happend
  omega

/-- A record as it is read from a file. -/
structure RecordRead where
  /-- The bytes of the fields. -/
  fields : List (List UInt8)
  /-- The bytes that were read. -/
  raw : List UInt8
  /-- The bytes after them. -/
  rest : List UInt8
deriving DecidableEq, Repr

/-- Reads the fields up to the end of a record. -/
def readFields (bytes : List UInt8) : RecordRead :=
  let field := readField bytes
  if h : field.ending = .comma then
    have : field.rest.length < bytes.length :=
      length_rest_readField_lt
        (by rw [show (readField bytes).ending = _ from h]; simp)
    let later := readFields field.rest
    ⟨field.content :: later.fields, field.raw ++ later.raw, later.rest⟩
  else ⟨[field.content], field.raw, field.rest⟩
termination_by bytes.length

theorem length_rest_readFields_le (bytes : List UInt8) :
    (readFields bytes).rest.length ≤ bytes.length := by
  fun_induction readFields bytes with
  | case1 bytes field h hlt later ih =>
    exact Nat.le_trans ih (length_rest_readField_le bytes)
  | case2 bytes field h => exact length_rest_readField_le bytes

theorem length_rest_readFields_lt {bytes : List UInt8} (hne : bytes ≠ []) :
    (readFields bytes).rest.length < bytes.length := by
  rw [readFields]
  split
  next h =>
    refine Nat.lt_of_le_of_lt (length_rest_readFields_le _) ?_
    exact length_rest_readField_lt (by simp [h])
  next h =>
    have happend := congrArg List.length (raw_readField_append bytes)
    simp only [List.length_append] at happend
    by_cases hfile : (readField bytes).ending = .file
    · cases bytes with
      | nil => contradiction
      | cons b rest =>
        have hraw : (readField (b :: rest)).raw ≠ [] := by
          simp only [readField]
          split
          · simp
          · simp only [readPlain]
            split
            · simp
            · split <;> simp [FieldRead.cons]
        have := List.length_pos_iff.2 hraw
        simp only at *
        omega
    · exact length_rest_readField_lt hfile

/-- Where a record is found. -/
structure Position where
  /-- The number of records before it. -/
  record : Nat
  /-- The number of its line, counted from one by line feeds. -/
  line : Nat
  /-- The number of bytes before it. -/
  byte : Nat
deriving DecidableEq, Repr

/-- The position after a record of these bytes. -/
def Position.after (p : Position) (raw : List UInt8) : Position where
  record := p.record + 1
  line := p.line + raw.count lineFeed
  byte := p.byte + raw.length

/-- A record of a file. -/
structure Record where
  /-- Where the record is found. -/
  position : Position
  /-- The bytes of its fields. -/
  fields : List (List UInt8)
deriving DecidableEq, Repr

/-- The records of bytes that begin at a position. -/
def readRecords (position : Position) (bytes : List UInt8) : List Record :=
  let blank := bytes.takeWhile isLineEnd
  let start := bytes.dropWhile isLineEnd
  if h : start = [] then []
  else
    let record := readFields start
    have : record.rest.length < bytes.length :=
      Nat.lt_of_lt_of_le (length_rest_readFields_lt h)
        (List.dropWhile_suffix isLineEnd).length_le
    ⟨position, record.fields⟩
      :: readRecords (position.after (blank ++ record.raw)) record.rest
termination_by bytes.length

/-- The mark that a file can begin with to say that it holds UTF-8. -/
def byteOrderMark : List UInt8 := [0xEF, 0xBB, 0xBF]

/-- The records of a file. A byte order mark belongs to no record. -/
def records (bytes : List UInt8) : List Record :=
  match byteOrderMark.isPrefixOf? bytes with
  | some rest => readRecords ⟨0, 1, 3⟩ rest
  | none => readRecords ⟨0, 1, 0⟩ bytes

end BenchReport.Csv
