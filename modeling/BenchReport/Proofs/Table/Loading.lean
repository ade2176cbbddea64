import BenchReport.Proofs.Csv.Spelling
import BenchReport.Proofs.Numeral.Grammar
import BenchReport.Proofs.Table.Reading

/-!
# Tables are loaded from their format and from nothing else

A file is a table if it has no record after the header, or if the header names
each of the columns once and every record after it can be read by those names.
Each layer has been told in both directions before, so what is put together here
is an equivalence, `load_eq_ok_iff`, and the rows of a table are determined by
the records.

The records are taken in the order of the file, so a file that is no table is
refused at the first record that cannot be read. If the columns are not there,
this is the first record after the header.
-/

namespace BenchReport

/-- The position of the record that is at fault. -/
def TableFault.position : TableFault → Csv.Position
  | .fieldCount position _ _ => position
  | .notText position _ _ => position
  | .row position _ => position

namespace Table

/-! ## Fields as texts -/

/-- Whether the field is encoded text, and this text without white space around
it. -/
def IsText (field : List UInt8) (text : List Char) : Prop :=
  ∃ cs, field = Utf8.encode cs ∧ text = Text.trim cs

theorem decode_field_eq_ok_iff {field : List UInt8} {text : List Char} :
    (∃ cs, Utf8.decode (Text.trimBoth isBlankByte field) = .ok cs ∧
      Text.trim cs = text) ↔
        IsText field text := by
  simp only [Utf8.decode_trimBoth_eq_ok_iff toNat_lt_of_isBlankByte]
  constructor
  · rintro ⟨_, ⟨cs, hfield, rfl⟩, rfl⟩
    exact ⟨cs, hfield, trimmed_eq_trim cs⟩
  · rintro ⟨cs, hfield, rfl⟩
    exact ⟨_, ⟨cs, hfield, rfl⟩, trimmed_eq_trim cs⟩

theorem fieldTexts_eq_ok_iff {index : Nat} {fields : List (List UInt8)}
    {texts : List (List Char)} :
    fieldTexts index fields = .ok texts ↔ List.Forall₂ IsText fields texts := by
  induction fields generalizing index texts with
  | nil => simp [fieldTexts, eq_comm]
  | cons field rest ih =>
      rw [fieldTexts, List.forall₂_cons_left_iff]
      simp only [← decode_field_eq_ok_iff, ← @ih (index + 1)]
      cases hdecode : Utf8.decode (Text.trimBoth isBlankByte field) with
      | error byte => simp
      | ok cs =>
          rw [map_eq_ok_iff]
          simp [eq_comm]

/-! ## Records as rows -/

/-- Whether the text is that of the cell of a row in a column: a count is a
number of 32 bits in decimal or hexadecimal, a time is any number. -/
def IsCell : Column → List Char → Timing → Prop
  | .xstreams, text, t => Whole.IsCount text t.xstreams.toNat
  | .threads, text, t => Whole.IsCount text t.threads.toNat
  | .seconds, text, t => Double.IsNumber text t.seconds
  | .nanos, text, t => Double.IsNumber text t.nanos

/-- Whether each of the columns is named exactly once. -/
def HasColumns (names : List (List Char)) : Prop :=
  ∀ column : Column, names.count column.name.toList = 1

/-- Whether the row is read from the fields of a record by the names of a
header. -/
def Reads (names : List (List Char)) (fields : List (List UInt8)) (t : Timing) :
    Prop :=
  fields.length = names.length ∧ ∃ texts, List.Forall₂ IsText fields texts ∧
    ∀ column : Column, ∃ text, (column.name.toList, text) ∈ names.zip texts ∧
      IsCell column text t

variable {header : List (List UInt8)} {names : List (List Char)}

theorem read_eq_ok_get_iff {column : Column} {text : List Char} {t : Timing} :
    column.read text = .ok (t.get column) ↔ IsCell column text t := by
  cases column with
  | xstreams | threads =>
      exact CellValue.ofCount_eq_ok_iff.trans Whole.readUInt32OrHex_eq_ok_iff
  | seconds | nanos =>
      exact CellValue.ofTime_eq_ok_iff.trans Double.read_eq_ok_iff

theorem layout_of_isText (hnames : List.Forall₂ IsText header names) :
    layout header = .named (names.map Column.ofName?) := by
  rw [layout, fieldTexts_eq_ok_iff.2 hnames]

theorem row_named_eq_ok_iff {texts : List (List Char)}
    (hlength : texts.length = names.length) {t : Timing} :
    row (.named (names.map Column.ofName?)) texts = .ok t ↔ HasColumns names ∧
      ∀ column : Column, ∃ text, (column.name.toList, text) ∈ names.zip texts ∧
        IsCell column text t := by
  rw [row_eq_ok_iff]
  simp only [Column.fields_zip_eq_singleton_iff hlength, read_eq_ok_get_iff]
  constructor
  · intro h
    refine ⟨fun column => ?_, fun column => ?_⟩
    · obtain ⟨text, ⟨hone, -⟩, -⟩ := h column
      exact hone
    · obtain ⟨text, ⟨-, hmem⟩, hcell⟩ := h column
      exact ⟨text, hmem, hcell⟩
  · rintro ⟨hcolumns, h⟩ column
    obtain ⟨text, hmem, hcell⟩ := h column
    exact ⟨text, ⟨hcolumns column, hmem⟩, hcell⟩

/-- A record is a row exactly if the columns are there and it can be read by
their names. -/
theorem timing_named_eq_ok_iff (hnames : List.Forall₂ IsText header names)
    {record : Csv.Record} {t : Timing} :
    timing header.length (layout header) record = .ok t ↔
      HasColumns names ∧ Reads names record.fields t := by
  rw [timing, layout_of_isText hnames, hnames.length_eq]
  by_cases hlength : record.fields.length = names.length
  · rw [if_neg (fun hne => hne hlength)]
    constructor
    · intro h
      split at h
      · cases h
      · next texts htexts =>
        have htexts := fieldTexts_eq_ok_iff.1 htexts
        split at h
        · next hrow =>
          cases h
          have hcells :=
            (row_named_eq_ok_iff (htexts.length_eq.symm.trans hlength)).1 hrow
          exact ⟨hcells.1, hlength, texts, htexts, hcells.2⟩
        · cases h
    · rintro ⟨hcolumns, -, texts, htexts, hcells⟩
      have hrow := (row_named_eq_ok_iff (htexts.length_eq.symm.trans hlength)).2
        ⟨hcolumns, hcells⟩
      simp only [fieldTexts_eq_ok_iff.2 htexts, hrow]
  · rw [if_pos hlength]
    refine iff_of_false nofun ?_
    rintro ⟨-, hsame, -⟩
    exact hlength hsame

/-! ## Files -/

theorem position_of_timing_eq_error {width : Nat} {layout : Layout}
    {record : Csv.Record} {fault : TableFault}
    (h : timing width layout record = .error fault) :
    fault.position = record.position := by
  rw [timing] at h
  split at h
  · cases h
    rfl
  · split at h
    · cases h
      rfl
    · split at h
      · cases h
      · cases h
        rfl

variable {tree : FileTree} {directory : Path} {case : String}
  {bytes : List UInt8}

/-- The records of a file after a header that can be read. -/
theorem load_of_records {first : Csv.Record} {records : List Csv.Record}
    (hread : tree.read (path directory case) = .ok bytes)
    (hrecords : Csv.records bytes = first :: records) :
    load tree directory case =
      match records.mapM (timing first.fields.length (layout first.fields)) with
      | .ok rows => .ok ⟨case, rows⟩
      | .error fault => .error (.malformed (path directory case) fault) := by
  rw [load_of_read hread, hrecords]
  rfl

section Records

variable {first : Csv.Record} {records : List Csv.Record}

theorem load_eq_ok_iff (hread : tree.read (path directory case) = .ok bytes)
    (hrecords : Csv.records bytes = first :: records)
    (hnames : List.Forall₂ IsText first.fields names) (table : Table) :
    load tree directory case = .ok table ↔ table.name = case ∧
      List.Forall₂
        (fun record t => HasColumns names ∧ Reads names record.fields t)
        records table.rows := by
  rw [load_of_records hread hrecords]
  obtain ⟨name, rows⟩ := table
  have hrows : records.mapM (timing first.fields.length (layout first.fields)) =
      .ok rows ↔
        List.Forall₂
          (fun record t => HasColumns names ∧ Reads names record.fields t)
          records rows := by
    simp only [mapM_eq_ok_iff, timing_named_eq_ok_iff hnames]
  rw [← hrows]
  cases records.mapM (timing first.fields.length (layout first.fields)) with
  | error fault => simp
  | ok found => simp [eq_comm]

theorem exists_load_eq_ok_iff
    (hread : tree.read (path directory case) = .ok bytes)
    (hrecords : Csv.records bytes = first :: records)
    (hnames : List.Forall₂ IsText first.fields names) :
    (∃ table, load tree directory case = .ok table) ↔ records = [] ∨
      HasColumns names ∧ ∀ record ∈ records, ∃ t,
        Reads names record.fields t := by
  have htable : (∃ table, load tree directory case = .ok table) ↔
      ∃ rows, records.mapM (timing first.fields.length (layout first.fields)) =
        .ok rows := by
    rw [load_of_records hread hrecords]
    cases records.mapM (timing first.fields.length (layout first.fields)) <;>
      simp
  rw [htable, exists_mapM_eq_ok_iff]
  simp only [timing_named_eq_ok_iff hnames, exists_and_left]
  cases records with
  | nil => simp
  | cons record rest =>
      constructor
      · intro h
        exact .inr ⟨(h record (List.mem_cons_self ..)).1,
          fun record hmem => (h record hmem).2⟩
      · rintro (hnil | ⟨hcolumns, hall⟩)
        · cases hnil
        · exact fun record hmem => ⟨hcolumns, hall record hmem⟩

theorem exists_of_load_eq_error
    (hread : tree.read (path directory case) = .ok bytes)
    (hrecords : Csv.records bytes = first :: records)
    (hnames : List.Forall₂ IsText first.fields names) {error : TableError}
    (herror : load tree directory case = .error error) :
    ∃ before record after fault, records = before ++ record :: after ∧
      (∀ earlier ∈ before, HasColumns names ∧
        ∃ t, Reads names earlier.fields t) ∧
      ¬ (HasColumns names ∧ ∃ t, Reads names record.fields t) ∧
      error = .malformed (path directory case) fault ∧
      fault.position = record.position := by
  rw [load_of_records hread hrecords] at herror
  split at herror
  · cases herror
  · next fault hfault =>
    cases herror
    obtain ⟨before, record, after, hsplit, hbefore, hrecord⟩ :=
      mapM_eq_error_iff.1 hfault
    refine ⟨before, record, after, fault, hsplit,
      fun earlier hmem => ?_, ?_, rfl, position_of_timing_eq_error hrecord⟩
    · obtain ⟨t, ht⟩ := hbefore earlier hmem
      obtain ⟨hcolumns, hreads⟩ := (timing_named_eq_ok_iff hnames).1 ht
      exact ⟨hcolumns, t, hreads⟩
    · rintro ⟨hcolumns, t, hreads⟩
      cases hrecord.symm.trans
        ((timing_named_eq_ok_iff hnames).2 ⟨hcolumns, hreads⟩)

end Records

/-- What loading makes of any file whose header is text. It gives a table
exactly if there is no record after the header, or each column is named once
and every record is read by the names. The table then has the row of each
record, in the order of the file, and no other rows. Else it gives no table,
and the fault is in the first record that is no row. However a file spells its
records, by quotes, blank lines, line ends and a byte order mark, it is these
records that are read. -/
theorem load_exact (hread : tree.read (path directory case) = .ok bytes) :
    (Csv.records bytes = [] → load tree directory case = .ok ⟨case, []⟩) ∧
    (∀ first records names, Csv.records bytes = first :: records →
      List.Forall₂ IsText first.fields names →
      ((∃ table, load tree directory case = .ok table) ↔ records = [] ∨
        HasColumns names ∧ ∀ record ∈ records, ∃ t,
          Reads names record.fields t) ∧
      (∀ table, load tree directory case = .ok table ↔ table.name = case ∧
        List.Forall₂
          (fun record t => HasColumns names ∧ Reads names record.fields t)
          records table.rows) ∧
      (∀ error, load tree directory case = .error error →
        ∃ before record after fault, records = before ++ record :: after ∧
          (∀ earlier ∈ before, HasColumns names ∧
            ∃ t, Reads names earlier.fields t) ∧
          ¬ (HasColumns names ∧ ∃ t, Reads names record.fields t) ∧
          error = .malformed (path directory case) fault ∧
          fault.position = record.position)) ∧
    (∀ spelled, Csv.Spells bytes spelled →
      (Csv.records bytes).map (·.fields) = spelled) := by
  refine ⟨?_, ?_, fun spelled => Csv.fields_records_of_spells⟩
  · intro hnone
    rw [load_of_read hread, hnone]
    rfl
  · intro first records names hrecords hnames
    exact ⟨exists_load_eq_ok_iff hread hrecords hnames,
      load_eq_ok_iff hread hrecords hnames,
      fun error => exists_of_load_eq_error hread hrecords hnames⟩

/-- A byte order mark, columns in another order with one that is not wanted, a
quoted field, a blank line, white space around a hexadecimal count and a
carriage return at the end. -/
theorem load_exact_odd :
    let bytes := Utf8.encode
      ("\uFEFFTime(nanos) ,Threads,\"Time(s)\",Samples,Xstreams\r\n\n" ++
        "2.5e9, 0x1F ,\"1\",\"a,b\",4294967295\r").toList
    let tree := FileTree.empty.put [⟨"odd.csv", by decide⟩] (.file bytes)
    tree.read (path ⟨"."⟩ "odd") = .ok bytes ∧
    ∃ first record names, Csv.records bytes = [first, record] ∧
      List.Forall₂ IsText first.fields names ∧
      load tree ⟨"."⟩ "odd" =
        .ok ⟨"odd", [⟨4294967295, 31, .ofNat 1, .ofNat 2500000000⟩]⟩ := by
  intro bytes tree
  have hread : tree.read (path ⟨"."⟩ "odd") = .ok bytes := by decide +kernel
  let names :=
    ["Time(nanos)", "Threads", "Time(s)", "Samples", "Xstreams"].map
      String.toList
  let first : Csv.Record := ⟨⟨0, 1, 3⟩,
    ["Time(nanos) ", "Threads", "Time(s)", "Samples", "Xstreams"].map
      fun text => Utf8.encode text.toList⟩
  let record : Csv.Record := ⟨⟨1, 1, 51⟩,
    ["2.5e9", " 0x1F ", "1", "a,b", "4294967295"].map fun text =>
      Utf8.encode text.toList⟩
  have hrecords : Csv.records bytes = [first, record] := by decide +kernel
  have htexts : fieldTexts 0 first.fields = .ok names := by decide +kernel
  have hnames := fieldTexts_eq_ok_iff.1 htexts
  obtain ⟨-, hnamed, -⟩ := load_exact hread
  obtain ⟨-, htable, -⟩ := hnamed first [record] names hrecords hnames
  refine ⟨hread, first, record, names, hrecords, hnames,
    (htable _).2 ⟨rfl, .cons ?_ .nil⟩⟩
  exact (timing_named_eq_ok_iff hnames).1 (by decide +kernel)

end Table

end BenchReport
