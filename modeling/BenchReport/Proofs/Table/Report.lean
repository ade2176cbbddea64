import BenchReport.Program.LogReport
import BenchReport.Proofs.Csv.RoundTrip
import BenchReport.Proofs.Double.Rounding
import BenchReport.Proofs.FileTree.Write
import BenchReport.Proofs.Outcome
import BenchReport.Proofs.Samples.Grouping
import BenchReport.Proofs.Table.Reading

/-!
# Tables of reports

A report in the table format is written by one program and loaded as a table by
another. The two share the names of the columns and nothing else, so what holds
of the pair is a fact about each layer in turn: a record is a row exactly if its
entry has both counts, the records of a file are read back as they were written,
and a written file is read back.
-/

namespace BenchReport

/-- Whether the row is that of the entry in a table. -/
structure Entry.IsRow (e : Entry) (t : Timing) : Prop where
  xstreams : e.setting.xstreams = some t.xstreams
  threads : e.setting.threads = some t.threads
  seconds : t.seconds = e.timeSeconds
  nanos : t.nanos = .ofNat e.timeNanos.toNat

namespace Table

/-! ## Rows -/

/-- The columns of a report, as far as tables want them. -/
def reportColumns : List (Option Column) :=
  [none, some .xstreams, some .threads, some .seconds, some .nanos, none]

theorem layout_reportHeader :
    layout (Csv.reportHeader.map Utf8.encode) = .named reportColumns := by
  rw [layout, fieldTexts_encode]
  decide

theorem trimmed_countField (count : Option UInt32) :
    trimmed (Csv.countField count) = Csv.countField count := by
  cases count with
  | none => rfl
  | some n => exact trimmed_of_isSolid (Text.isSolid_toDigits _)

theorem trimmed_ofEntry (e : Entry) :
    (Csv.ofEntry e).map trimmed =
      trimmed ((e.setting.problemClass.map String.toList).getD []) ::
        (Csv.ofEntry e).tail := by
  simp only [Csv.ofEntry, List.map_cons, List.map_nil, List.tail_cons,
    trimmed_countField, trimmed_of_isSolid (Text.isSolid_toDigits _),
    trimmed_of_isSolid (Double.isSolid_toChars NumeralStyle.readable_tabular _)]

theorem readUInt32OrHex_countField (count : Option UInt32) :
    Whole.readUInt32OrHex (Csv.countField count) =
      match count with
      | none => .error .empty
      | some n => .ok n := by
  cases count with
  | none => rfl
  | some n => exact Whole.readUInt32OrHex_toDigits n

theorem read_timeNanos (e : Entry) :
    Double.read (Nat.toDigits 10 e.timeNanos.toNat) =
      .ok (.ofNat e.timeNanos.toNat) :=
  Double.read_toDigits e.timeNanos.toNat

/-- The row of the record of an entry, or the first count that it lacks. -/
theorem row_ofEntry (e : Entry) :
    row (.named reportColumns) ((Csv.ofEntry e).map trimmed) =
      match e.setting.xstreams, e.setting.threads with
      | none, _ => .error (.cell 1 (.whole .empty))
      | some _, none => .error (.cell 2 (.whole .empty))
      | some xstreams, some threads =>
        .ok { xstreams, threads, seconds := e.timeSeconds,
              nanos := .ofNat e.timeNanos.toNat } := by
  rw [trimmed_ofEntry]
  have hseconds :=
    Double.read_toChars NumeralStyle.readable_tabular e.timeSeconds
  have hnanos := read_timeNanos e
  cases hxstreams : e.setting.xstreams with
  | none =>
      simp [row, reportColumns, Csv.ofEntry, Cells.readAll, Cells.has,
        Cells.insert, hxstreams, readUInt32OrHex_countField]
  | some xstreams =>
      cases hthreads : e.setting.threads with
      | none =>
          simp [row, reportColumns, Csv.ofEntry, Cells.readAll, Cells.has,
            Cells.insert, hxstreams, hthreads, readUInt32OrHex_countField]
      | some threads =>
          simp [row, reportColumns, Csv.ofEntry, Cells.readAll, Cells.has,
            Cells.insert, hxstreams, hthreads, readUInt32OrHex_countField,
            hseconds, hnanos, Cells.complete]

theorem timing_eq_ok_iff {e : Entry} {record : Csv.Record}
    (h : record.fields = (Csv.ofEntry e).map Utf8.encode) (t : Timing) :
    timing 6 (.named reportColumns) record = .ok t ↔ e.IsRow t := by
  have hlength : record.fields.length = 6 := by rw [h]; rfl
  rw [timing, if_neg (fun hne => hne hlength), h, fieldTexts_encode]
  simp only [row_ofEntry]
  constructor
  · intro ht
    split at ht
    · next hrow =>
      cases ht
      split at hrow
      · cases hrow
      · cases hrow
      · next hxstreams hthreads =>
        cases hrow
        exact ⟨hxstreams, hthreads, rfl, rfl⟩
    · cases ht
  · rintro ⟨hxstreams, hthreads, hseconds, hnanos⟩
    simp only [hxstreams, hthreads, ← hseconds, ← hnanos]

/-! ## Files -/

theorem reportRecords_cons (e : Entry) (rest : List Entry) :
    Csv.reportRecords (e :: rest) = Csv.reportHeader ::
      (e :: rest).map Csv.ofEntry := rfl

theorem fields_records_report (entries : List Entry) :
    (Csv.records (Utf8.encode (Csv.report entries))).map (·.fields) =
      (Csv.reportRecords entries).map (·.map Utf8.encode) := by
  have hwide : ∀ fields ∈ Csv.reportRecords entries, 2 ≤ fields.length := by
    intro fields hfields
    cases entries with
    | nil => cases hfields
    | cons e rest =>
        rcases List.mem_cons.1 hfields with rfl | hmem
        · decide
        · obtain ⟨e, -, rfl⟩ := List.mem_map.1 hmem
          exact Nat.le_add_left 2 4
  have hmark :
      Csv.byteOrderMark.isPrefixOf? (Utf8.encode (Csv.report entries)) =
        none := by
    cases entries with
    | nil => rfl
    | cons e rest =>
        rw [Csv.report, reportRecords_cons, List.flatMap_cons,
          Utf8.encode_append]
        rfl
  exact Csv.fields_records_of_spells
    (.plain (Csv.spellsRecords_flatMap hwide) hmark)

theorem mapM_timing_eq_ok_iff {entries : List Entry} {records : List Csv.Record}
    (h : records.map (·.fields) = entries.map fun e =>
      (Csv.ofEntry e).map Utf8.encode)
    (rows : List Timing) :
    records.mapM (timing 6 (.named reportColumns)) = .ok rows ↔
      List.Forall₂ Entry.IsRow entries rows := by
  have hlinked : List.Forall₂ (fun (record : Csv.Record) e =>
      record.fields = (Csv.ofEntry e).map Utf8.encode) records entries := by
    rw [← List.forall₂_eq_eq_eq] at h
    rwa [List.forall₂_map_left_iff, List.forall₂_map_right_iff] at h
  rw [mapM_eq_ok_iff]
  clear h
  induction hlinked generalizing rows with
  | nil => simp
  | cons hrecord _ ih =>
      simp only [List.forall₂_cons_left_iff, timing_eq_ok_iff hrecord, ih]

/-- A report is read as the rows of its entries, and only as these. -/
theorem timings_report_eq_ok_iff (entries : List Entry) (rows : List Timing) :
    timings (Csv.records (Utf8.encode (Csv.report entries))) = .ok rows ↔
      List.Forall₂ Entry.IsRow entries rows := by
  have hfields := fields_records_report entries
  cases entries with
  | nil =>
      obtain hnil := List.map_eq_nil_iff.1 hfields
      rw [hnil, timings, List.forall₂_nil_left_iff]
      exact ⟨fun h => (Except.ok.inj h).symm, fun h => congrArg _ h.symm⟩
  | cons e rest =>
      rw [reportRecords_cons, List.map_cons] at hfields
      obtain ⟨header, records, hrecords, hheader, hlater⟩ :=
        List.map_eq_cons_iff.1 hfields
      have hlength : header.fields.length = 6 := by rw [hheader]; rfl
      rw [hrecords, timings, hlength, hheader, layout_reportHeader]
      rw [List.map_map] at hlater
      exact mapM_timing_eq_ok_iff hlater rows

/-! ## Written reports -/

section Written

variable {s : Samples} {tree written : FileTree} {directory : Path}
  {name : String}

theorem read_of_writeReport {path : Path} {report : String}
    (hwritten : writeReport tree path report = .ok written) :
    written.read path = .ok (Utf8.encode report.toList) := by
  rw [writeReport] at hwritten
  split at hwritten
  · next hwrite =>
    cases hwritten
    exact FileTree.read_write hwrite
  · cases hwritten

theorem load_of_writeReport
    (hwritten : writeReport tree (path directory name) (s.report .csv) =
      .ok written) :
    load written directory name =
      match timings (Csv.records (Utf8.encode (Csv.report s.entries))) with
      | .ok rows => .ok ⟨name, rows⟩
      | .error fault => .error (.malformed (path directory name) fault) := by
  have hread := read_of_writeReport hwritten
  rw [Samples.report, String.toList_ofList] at hread
  exact load_of_read hread

theorem load_of_writeReport_eq_ok_iff
    (hwritten : writeReport tree (path directory name) (s.report .csv) =
      .ok written)
    (table : Table) :
    load written directory name = .ok table ↔
      table.name = name ∧ List.Forall₂ Entry.IsRow s.entries table.rows := by
  rw [load_of_writeReport hwritten, ← timings_report_eq_ok_iff]
  obtain ⟨tableName, rows⟩ := table
  cases timings (Csv.records (Utf8.encode (Csv.report s.entries))) with
  | error fault => simp
  | ok found => simp [eq_comm]

theorem exists_rows_iff (entries : List Entry) :
    (∃ rows, List.Forall₂ Entry.IsRow entries rows) ↔
      ∀ e ∈ entries, e.setting.xstreams.isSome ∧ e.setting.threads.isSome := by
  induction entries with
  | nil => simp
  | cons e rest ih =>
      rw [List.forall_mem_cons, ← ih]
      constructor
      · rintro ⟨rows, hrows⟩
        obtain ⟨t, later, ht, hlater, -⟩ := List.forall₂_cons_left_iff.1 hrows
        exact ⟨⟨by rw [ht.xstreams]; rfl, by rw [ht.threads]; rfl⟩,
          later, hlater⟩
      · rintro ⟨⟨hxstreams, hthreads⟩, later, hlater⟩
        obtain ⟨xstreams, hxstreams⟩ := Option.isSome_iff_exists.1 hxstreams
        obtain ⟨threads, hthreads⟩ := Option.isSome_iff_exists.1 hthreads
        exact ⟨⟨xstreams, threads, e.timeSeconds, .ofNat e.timeNanos.toNat⟩ ::
          later, .cons ⟨hxstreams, hthreads, rfl, rfl⟩ hlater⟩

/-- A report that is written as a table and loaded again. It is a table exactly
if all groups that it tells of have both counts, and then it has the rows of
their entries, in ascending order of settings; else it is malformed. -/
theorem load_written_report
    (hwritten : writeReport tree (path directory name) (s.report .csv) =
      .ok written) :
    ((∃ table, load written directory name = .ok table) ↔
      ∀ g ∈ s.groups, g.times ≠ [] → g.setting.xstreams.isSome ∧
        g.setting.threads.isSome) ∧
    (∀ table, load written directory name = .ok table →
      table.name = name ∧
      List.Forall₂ (fun e t => e.IsRow t ∧ t.nanos.IsNearest e.timeNanos.toNat)
        s.entries table.rows) ∧
    s.entries.map (·.setting) = (s.groups.filter (·.times ≠ [])).map
      (·.setting) ∧
    (s.entries.map (·.setting)).Pairwise (fun a b => compare a b = .lt) ∧
    (∀ error, load written directory name = .error error →
      ∃ fault, error = .malformed (path directory name) fault) ∧
    ((∀ g ∈ s.groups, g.times = []) →
      s.report .csv = "" ∧ load written directory name = .ok ⟨name, []⟩) := by
  have hload := load_of_writeReport_eq_ok_iff hwritten
  refine ⟨?_, ?_, s.settings_entries, s.pairwise_settings_entries, ?_, ?_⟩
  · rw [← Samples.forall_entries_iff
      (P := fun x => x.xstreams.isSome ∧ x.threads.isSome), ← exists_rows_iff]
    constructor
    · rintro ⟨table, htable⟩
      exact ⟨table.rows, ((hload table).1 htable).2⟩
    · rintro ⟨rows, hrows⟩
      exact ⟨⟨name, rows⟩, (hload _).2 ⟨rfl, hrows⟩⟩
  · intro table htable
    obtain ⟨hname, hrows⟩ := (hload table).1 htable
    refine ⟨hname, hrows.imp fun e t ht => ⟨ht, ?_⟩⟩
    rw [ht.nanos]
    exact Double.isNearest_ofNat _
  · intro error herror
    rw [load_of_writeReport hwritten] at herror
    split at herror
    · cases herror
    · next fault _ =>
      cases herror
      exact ⟨fault, rfl⟩
  · intro hnone
    have hentries : s.entries = [] := by
      have hsettings := s.settings_entries
      rw [Samples.nonempty, List.filter_eq_nil_iff.2 (by simpa using hnone)]
        at hsettings
      exact List.map_eq_nil_iff.1 hsettings
    refine ⟨?_, (hload _).2 ⟨rfl, ?_⟩⟩
    · rw [Samples.report, Samples.reportChars, hentries]
      rfl
    · rw [hentries]
      exact .nil

/-- A class with all that asks for quotes, times that are no number, and a group
without times whose counts are unknown. -/
theorem load_written_report_odd :
    let runs : List Run :=
      [{ setting := ⟨some " a,\"b\r\n ", some 1, some 2⟩,
         elapsed := .infinity },
        { setting := ⟨none, some 4294967295, some 2⟩, elapsed := .nan },
        { setting := ⟨some " a,\"b\r\n ", some 1, some 2⟩,
          elapsed := .ofNat 3 }]
    let s := (Samples.ofList runs).insert {} []
    ∃ written,
      writeReport .empty (path ⟨"."⟩ "odd") (s.report .csv) = .ok written ∧
      ∃ table, load written ⟨"."⟩ "odd" = .ok table ∧
        table.rows.length = 2 := by
  intro runs s
  have hroute : FileTree.route? (path ⟨"."⟩ "odd") =
      .ok ⟨false, [.here, .name ⟨"odd.csv", by decide⟩], false⟩ := by
    decide +kernel
  have hwritten : writeReport .empty (path ⟨"."⟩ "odd") (s.report .csv) =
      .ok (FileTree.empty.put [⟨"odd.csv", by decide⟩]
        (.file (Utf8.encode (s.report .csv).toList))) := by
    rw [writeReport, FileTree.write_empty hroute]
  obtain ⟨hiff, hrows, -⟩ := load_written_report hwritten
  obtain ⟨table, htable⟩ := hiff.2 (by decide +kernel)
  refine ⟨_, hwritten, table, htable, ?_⟩
  rw [← (hrows table htable).2.length_eq]
  decide +kernel

end Written

end Table

end BenchReport
