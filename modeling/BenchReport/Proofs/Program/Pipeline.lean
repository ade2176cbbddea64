import BenchReport.Proofs.Program.Rendering
import BenchReport.Proofs.Table.Charts
import BenchReport.Proofs.Table.Report

/-!
# From logs to charts

The runs of some logs are grouped by setting, reported as a table, loaded again
and charted. If all runs are of one class and have both counts, a group is known
by its counts, and the settings of the groups can be read off the rows of the
table: they are the rows with the class put back (`Timing.setting`). Their order
is then the order of the rows by counts, so what is known of charts of ascending
tables holds, and the only questions left are about the runs: whether one of
them was measured with one stream and one thread, and whether a mean rounds to
no nanosecond at all.
-/

namespace BenchReport

/-- The runs that logs tell of, without the logs that tell of none. -/
def Run.ofLogs (logs : List (List Char)) : List Run :=
  logs.filterMap fun log => (Run.ofLog log).toOption

/-- Whether the run was measured with one stream and one thread. -/
def Run.IsBaseline (run : Run) : Prop :=
  run.setting.xstreams = some 1 ∧ run.setting.threads = some 1

/-- The setting of a row in a table of one class. -/
def Timing.setting (problemClass : Option String) (t : Timing) : Setting where
  problemClass
  xstreams := some t.xstreams
  threads := some t.threads

/-- The groups with some number of streams. -/
def Samples.withStreams (s : Samples) (n : UInt32) : List Group :=
  s.groups.filter (·.setting.xstreams = some n)

/-- Whether the rows are those of samples of one class, with a row for
every group. -/
structure Samples.AreRows (s : Samples) (problemClass : Option String)
    (rows : List Timing) :
    Prop where
  entries : List.Forall₂ Entry.IsRow s.entries rows
  settings : rows.map (Timing.setting problemClass) = s.groups.map (·.setting)

/-- Whether the charts are those of a case for some number of streams: one for
each metric, and in each of them a point for each group, from left to right. -/
structure Samples.AreCharts (s : Samples) (case : String) (n : UInt32)
    (charts : List Chart) :
    Prop where
  three : charts.length = 3
  titles : charts.map (·.title) = Metric.all.map (·.title n case)
  points : ∀ chart ∈ charts, chart.points.map (·.x) =
    (s.withStreams n).map fun g => .ofNat (g.setting.threads.getD 0).toNat
  ascending : ∀ chart ∈ charts, (chart.points.map (·.x)).Pairwise (· < ·)

/-! ## Rows of one class -/

theorem Timing.before_of_compare {problemClass : Option String} {a b : Timing}
    (h : compare (a.setting problemClass) (b.setting problemClass) = .lt) :
    a.Before b := by
  have hclass : compare problemClass problemClass = .eq :=
    Std.ReflCmp.compare_self
  have hcounts : (compare problemClass problemClass).then
      ((compare a.xstreams b.xstreams).then (compare a.threads b.threads)) =
        .lt := h
  rw [hclass, Ordering.eq_then, Ordering.then_eq_lt] at hcounts
  rcases hcounts with hlt | ⟨heq, hlt⟩
  · exact .inl (Std.compare_eq_lt.1 hlt)
  · exact .inr ⟨Std.LawfulEqOrd.eq_of_compare heq, Std.compare_eq_lt.1 hlt⟩

theorem map_setting_rows {problemClass : Option String} {entries : List Entry}
    {rows : List Timing} (h : List.Forall₂ Entry.IsRow entries rows)
    (hclass : ∀ e ∈ entries, e.setting.problemClass = problemClass) :
    rows.map (Timing.setting problemClass) = entries.map (·.setting) := by
  induction h with
  | nil => rfl
  | cons hrow _ ih =>
      obtain ⟨he, hrest⟩ := List.forall_mem_cons.1 hclass
      rw [List.map_cons, List.map_cons, ih hrest]
      rw [Timing.setting, ← hrow.xstreams, ← hrow.threads, ← he]

theorem Entry.IsRow.isValid_iff {e : Entry} {t : Timing} (h : e.IsRow t) :
    t.isValid = true ↔ e.timeNanos ≠ 0 := by
  have hsize := e.timeNanos.toNat_lt
  rw [Timing.isValid, h.nanos, Double.isFinite_ofNat hsize, Bool.true_and,
    decide_eq_true_eq, Double.zero_lt_ofNat_iff hsize]
  exact not_congr (UInt64.toNat_inj (b := 0))

theorem forall_isValid_iff {entries : List Entry} {rows : List Timing}
    (h : List.Forall₂ Entry.IsRow entries rows) :
    (∀ t ∈ rows, t.isValid = true) ↔ ∀ e ∈ entries, e.timeNanos ≠ 0 := by
  induction h with
  | nil => simp
  | cons ht _ ih =>
      rw [List.forall_mem_cons, List.forall_mem_cons, ht.isValid_iff, ih]

/-! ## The charts of a written report -/

section Written

variable {runs : List Run} {problemClass : Option String}
  {tree written : FileTree} {directory : Path} {name : String}
  {rows : List Timing}

theorem settings_entries_ofList (runs : List Run) :
    (Samples.ofList runs).entries.map (·.setting) =
      (Samples.ofList runs).groups.map (·.setting) := by
  have hall : (Samples.ofList runs).nonempty = (Samples.ofList runs).groups :=
    List.filter_eq_self.2 fun g hg =>
      decide_eq_true (Samples.times_ofList_ne_nil runs g hg)
  rw [Samples.settings_entries, hall]

theorem forall_settings_ofList {P : Setting → Prop}
    (h : ∀ run ∈ runs, P run.setting) :
    ∀ e ∈ (Samples.ofList runs).entries, P e.setting := by
  intro e he
  have hmem := List.mem_map_of_mem (f := (·.setting)) he
  rw [settings_entries_ofList, Samples.mem_settings_ofList] at hmem
  obtain ⟨run, hrun, hsetting⟩ := List.mem_map.1 hmem
  exact hsetting ▸ h run hrun

theorem areRows_ofList
    (hclass : ∀ run ∈ runs, run.setting.problemClass = problemClass)
    (hentries : List.Forall₂ Entry.IsRow (Samples.ofList runs).entries rows) :
    (Samples.ofList runs).AreRows problemClass rows where
  entries := hentries
  settings := by
    rw [← settings_entries_ofList]
    exact map_setting_rows hentries
      (forall_settings_ofList (P := (·.problemClass = problemClass)) hclass)

theorem Samples.AreRows.ascending {s : Samples}
    (hrows : s.AreRows problemClass rows) :
    Table.Ascending ⟨name, rows⟩ := by
  have hpairwise : (rows.map (Timing.setting problemClass)).Pairwise
      fun a b => compare a b = .lt := by
    rw [hrows.settings, List.pairwise_map]
    exact s.ascending
  exact (List.pairwise_map.1 hpairwise).imp Timing.before_of_compare

/-- What is true of the setting of a row is true of the setting of a run. -/
theorem exists_setting_iff {P : Setting → Prop}
    (hrows : (Samples.ofList runs).AreRows problemClass rows) :
    (∃ t ∈ rows, P (t.setting problemClass)) ↔ ∃ run ∈ runs, P run.setting := by
  have hmem : ∀ x, x ∈ rows.map (Timing.setting problemClass) ↔
      x ∈ runs.map (·.setting) := by
    intro x
    rw [hrows.settings, Samples.mem_settings_ofList]
  constructor
  · rintro ⟨t, ht, hp⟩
    obtain ⟨run, hrun, hsetting⟩ :=
      List.mem_map.1 ((hmem _).1 (List.mem_map_of_mem ht))
    exact ⟨run, hrun, hsetting ▸ hp⟩
  · rintro ⟨run, hrun, hp⟩
    obtain ⟨t, ht, hsetting⟩ :=
      List.mem_map.1 ((hmem _).2 (List.mem_map_of_mem hrun))
    exact ⟨t, ht, hsetting ▸ hp⟩

theorem exists_isBaseline_iff
    (hrows : (Samples.ofList runs).AreRows problemClass rows) :
    (∃ t ∈ rows, t.isBaseline = true) ↔ ∃ run ∈ runs, run.IsBaseline := by
  have hiff := exists_setting_iff
    (P := fun x => x.xstreams = some 1 ∧ x.threads = some 1) hrows
  refine Iff.trans (exists_congr fun t => and_congr_right fun _ => ?_) hiff
  rw [Timing.isBaseline_iff, Timing.setting, Option.some.injEq,
    Option.some.injEq]

theorem withStreams_eq {s : Samples} (hrows : s.AreRows problemClass rows)
    (n : UInt32) :
    (rows.filter (·.xstreams = n)).map (fun t => Double.ofNat t.threads.toNat) =
      (s.withStreams n).map fun g =>
        .ofNat (g.setting.threads.getD 0).toNat := by
  have hfilter := congrArg (fun l : List Setting =>
    (l.filter (·.xstreams = some n)).map fun x =>
      Double.ofNat (x.threads.getD 0).toNat) hrows.settings
  simp only [List.filter_map, List.map_map] at hfilter
  have hstreams : (fun t : Timing => decide (t.xstreams = n)) =
      (fun x : Setting => decide (x.xstreams = some n)) ∘
        Timing.setting problemClass := by
    funext t
    simp [Timing.setting]
  rw [hstreams]
  exact hfilter

theorem mem_streams_iff
    (hrows : (Samples.ofList runs).AreRows problemClass rows) (n : UInt32) :
    n ∈ Table.xstreams ⟨name, rows⟩ ↔
      ∃ run ∈ runs, run.setting.xstreams = some n := by
  rw [Table.mem_xstreams,
    ← exists_setting_iff (P := (·.xstreams = some n)) hrows]
  refine exists_congr fun t => and_congr_right fun _ => ?_
  rw [Timing.setting, Option.some.injEq]

theorem areCharts {s : Samples} {speedups : List Double}
    (hrows : s.AreRows problemClass rows)
    (hlength : rows.length = speedups.length) (images : Path) (n : UInt32) :
    s.AreCharts name n
      (Metric.all.map (Metric.chart name images (rows.zip speedups) n)) := by
  have hascending : Table.Ascending ⟨name, rows⟩ := hrows.ascending
  have hpoints :
      ∀ chart ∈ Metric.all.map (Metric.chart name images (rows.zip speedups) n),
      chart.points.map (·.x) =
        (rows.filter (·.xstreams = n)).map fun t => .ofNat t.threads.toNat := by
    intro chart hchart
    obtain ⟨metric, -, rfl⟩ := List.mem_map.1 hchart
    exact Table.map_x_points hlength n metric
  refine ⟨rfl, rfl, fun chart hchart => ?_, fun chart hchart => ?_⟩
  · rw [hpoints chart hchart, withStreams_eq hrows]
  · rw [hpoints chart hchart]
    exact hascending.pairwise_points n

theorem exists_rows_of_writeReport
    (hclass : ∀ run ∈ runs, run.setting.problemClass = problemClass)
    (hcounts : ∀ run ∈ runs, run.setting.xstreams.isSome ∧
      run.setting.threads.isSome)
    (hwritten : writeReport tree (Table.path directory name)
      ((Samples.ofList runs).report .csv) = .ok written) :
    ∃ rows, (Samples.ofList runs).AreRows problemClass rows ∧
      Table.load written directory name = .ok ⟨name, rows⟩ := by
  obtain ⟨rows, hentries⟩ := (Table.exists_rows_iff _).2
    (forall_settings_ofList (P := fun x => x.xstreams.isSome ∧ x.threads.isSome)
      hcounts)
  refine ⟨rows, areRows_ofList hclass hentries, ?_⟩
  exact (Table.load_of_writeReport_eq_ok_iff hwritten ⟨name, rows⟩).2
    ⟨rfl, hentries⟩

variable {load : String → Except TableError Table} {output : Path}
  {table : Table}

theorem caseSet_of_ok {charts : List Chart} (hload : load name = .ok table)
    (hcharts : caseCharts table output = .ok charts) :
    caseSet load output name = .ok charts := by
  rw [caseSet, hload]
  show (caseCharts table output).mapError ChartError.timing = _
  rw [hcharts]
  rfl

theorem caseSet_of_error {error : TimingError} (hload : load name = .ok table)
    (hcharts : caseCharts table output = .error error) :
    caseSet load output name = .error (.timing error) := by
  rw [caseSet, hload]
  show (caseCharts table output).mapError ChartError.timing = _
  rw [hcharts]
  rfl

theorem caseSet_of_not_isBaseline (hload : load name = .ok ⟨name, rows⟩)
    (hrows : (Samples.ofList runs).AreRows problemClass rows)
    (hbase : ¬ ∃ run ∈ runs, run.IsBaseline) (output : Path) :
    caseSet load output name = .error (.timing (.baselineNotFound name)) := by
  rw [← exists_isBaseline_iff hrows] at hbase
  have hnone : ∀ t ∈ rows, ¬ t.isBaseline = true :=
    fun t ht h => hbase ⟨t, ht, h⟩
  have hcharts :
      caseCharts ⟨name, rows⟩ output = .error (.baselineNotFound name) :=
    Table.caseCharts_of_not_isBaseline hnone output
  exact caseSet_of_error hload hcharts

theorem caseSet_of_zero (hload : load name = .ok ⟨name, rows⟩)
    (hrows : (Samples.ofList runs).AreRows problemClass rows)
    (hbase : ∃ run ∈ runs, run.IsBaseline)
    (hzero : ¬ ∀ e ∈ (Samples.ofList runs).entries, e.timeNanos ≠ 0)
    (output : Path) :
    ∃ timing, caseSet load output name =
      .error (.timing (.invalidTiming name timing)) := by
  rw [← exists_isBaseline_iff hrows] at hbase
  have hinvalid : ∃ t ∈ rows, ¬ t.isValid = true := by
    simpa using mt (forall_isValid_iff hrows.entries).1 hzero
  have hascending : Table.Ascending ⟨name, rows⟩ := hrows.ascending
  obtain ⟨timing, hcharts⟩ :=
    hascending.caseCharts_of_not_isValid hbase hinvalid output
  exact ⟨timing, caseSet_of_error hload hcharts⟩

theorem caseSet_of_ne_zero (hload : load name = .ok ⟨name, rows⟩)
    (hrows : (Samples.ofList runs).AreRows problemClass rows)
    (hbase : ∃ run ∈ runs, run.IsBaseline)
    (hnanos : ∀ e ∈ (Samples.ofList runs).entries, e.timeNanos ≠ 0)
    (output : Path) :
    ∃ (streams : List UInt32) (sets : List (List Chart)),
      caseSet load output name = .ok sets.flatten ∧ streams.Pairwise (· < ·) ∧
      (∀ n, n ∈ streams ↔ ∃ run ∈ runs, run.setting.xstreams = some n) ∧
      List.Forall₂ ((Samples.ofList runs).AreCharts name) streams sets := by
  rw [← exists_isBaseline_iff hrows] at hbase
  have hvalid := (forall_isValid_iff hrows.entries).2 hnanos
  have hascending : Table.Ascending ⟨name, rows⟩ := hrows.ascending
  obtain ⟨speedups, hlength, hcharts⟩ :=
    hascending.caseCharts_of_isValid hbase hvalid output
  refine ⟨Table.xstreams ⟨name, rows⟩, _, caseSet_of_ok hload hcharts,
    hascending.pairwise_xstreams, mem_streams_iff hrows, ?_⟩
  rw [List.forall₂_map_right_iff, List.forall₂_same]
  exact fun n _ => areCharts hrows hlength _ n

/-- Logs of one class whose runs have both counts, reported as a table and
charted from it. There are charts unless no run is a baseline or a mean rounds
to no nanosecond, and nothing else can go wrong. -/
theorem caseSet_of_logs {logs : List (List Char)} (output : Path)
    (hclass : ∀ run ∈ Run.ofLogs logs, run.setting.problemClass = problemClass)
    (hcounts : ∀ run ∈ Run.ofLogs logs,
      run.setting.xstreams.isSome ∧ run.setting.threads.isSome)
    (hwritten : writeReport tree (Table.path directory name)
      ((Samples.ofList (Run.ofLogs logs)).report .csv) = .ok written) :
    (caseSet (Table.load written directory) output name =
        .error (.timing (.baselineNotFound name)) ↔
      ¬ ∃ run ∈ Run.ofLogs logs, run.IsBaseline) ∧
    ((∃ run ∈ Run.ofLogs logs, run.IsBaseline) →
      ((∃ timing, caseSet (Table.load written directory) output name =
          .error (.timing (.invalidTiming name timing))) ↔
        ∃ e ∈ (Samples.ofList (Run.ofLogs logs)).entries, e.timeNanos = 0)) ∧
    ((∃ run ∈ Run.ofLogs logs, run.IsBaseline) →
      (∀ e ∈ (Samples.ofList (Run.ofLogs logs)).entries, e.timeNanos ≠ 0) →
      ∃ (streams : List UInt32) (sets : List (List Chart)),
        caseSet (Table.load written directory) output name = .ok sets.flatten ∧
        streams.Pairwise (· < ·) ∧
        (∀ n, n ∈ streams ↔
          ∃ run ∈ Run.ofLogs logs, run.setting.xstreams = some n) ∧
        List.Forall₂ ((Samples.ofList (Run.ofLogs logs)).AreCharts name)
          streams sets) ∧
    ∀ error, caseSet (Table.load written directory) output name = .error error →
      error = .timing (.baselineNotFound name) ∨
        ∃ timing, error = .timing (.invalidTiming name timing) := by
  obtain ⟨rows, hrows, hload⟩ :=
    exists_rows_of_writeReport hclass hcounts hwritten
  by_cases hbase : ∃ run ∈ Run.ofLogs logs, run.IsBaseline
  · by_cases hnanos :
      ∀ e ∈ (Samples.ofList (Run.ofLogs logs)).entries, e.timeNanos ≠ 0
    · have hcharts := caseSet_of_ne_zero hload hrows hbase hnanos output
      have hsome :
          ∃ charts, caseSet (Table.load written directory) output name =
            .ok charts := by
        obtain ⟨_, sets, hset, -⟩ := hcharts
        exact ⟨sets.flatten, hset⟩
      obtain ⟨charts, hset⟩ := hsome
      refine ⟨?_, fun _ => ?_, fun _ _ => hcharts, fun error h => ?_⟩
      · simp [hset, hbase]
      · simpa [hset] using hnanos
      · rw [hset] at h
        cases h
    · obtain ⟨timing, hset⟩ := caseSet_of_zero hload hrows hbase hnanos output
      rw [hset]
      refine ⟨?_, fun _ => ?_, fun _ h => absurd h hnanos, fun error h => ?_⟩
      · simp [hbase]
      · exact ⟨fun _ => by simpa using hnanos, fun _ => ⟨timing, rfl⟩⟩
      · exact .inr ⟨timing, (Except.error.inj h).symm⟩
  · rw [caseSet_of_not_isBaseline hload hrows hbase output]
    refine ⟨⟨fun _ => hbase, fun _ => rfl⟩, fun h => absurd h hbase,
      fun h => absurd h hbase, fun error h => ?_⟩
    exact .inl (Except.error.inj h).symm

/-- A log of a run that failed, and two runs of one class, the second of them a
baseline. -/
theorem caseSet_of_logs_three :
    let logs : List (List Char) :=
      ["VERIFICATION FAILED".toList,
        ("Class = A Number of available xstreams: 1 Number of available threads: 2 " ++
          "Time in seconds = 1.5 VERIFICATION SUCCESSFUL").toList,
        ("Class = A Number of available xstreams: 1 Number of available threads: 1 " ++
          "Time in seconds = 3 VERIFICATION SUCCESSFUL").toList]
    ∃ written, writeReport .empty (Table.path ⟨"."⟩ "odd")
        ((Samples.ofList (Run.ofLogs logs)).report .csv) = .ok written ∧
      ∃ charts, caseSet (Table.load written ⟨"."⟩) ⟨"charts"⟩ "odd" =
        .ok charts := by
  intro logs
  have hroute : FileTree.route? (Table.path ⟨"."⟩ "odd") =
      .ok ⟨false, [.here, .name ⟨"odd.csv", by decide⟩], false⟩ := by
    decide +kernel
  have hwritten : writeReport .empty (Table.path ⟨"."⟩ "odd")
      ((Samples.ofList (Run.ofLogs logs)).report .csv) =
        .ok (FileTree.empty.put [⟨"odd.csv", by decide⟩] (.file (Utf8.encode
          ((Samples.ofList (Run.ofLogs logs)).report .csv).toList))) := by
    rw [writeReport, FileTree.write_empty hroute]
  obtain ⟨hsettings, hnanos⟩ : (Run.ofLogs logs).map (·.setting) =
        [⟨some "A", some 1, some 2⟩, ⟨some "A", some 1, some 1⟩] ∧
      ∀ e ∈ (Samples.ofList (Run.ofLogs logs)).entries, e.timeNanos ≠ 0 := by
    decide +kernel
  have hall : ∀ run ∈ Run.ofLogs logs, run.setting.problemClass = some "A" ∧
      run.setting.xstreams.isSome ∧ run.setting.threads.isSome := by
    rw [← List.forall_mem_map (P := fun x : Setting =>
      x.problemClass = some "A" ∧ x.xstreams.isSome ∧ x.threads.isSome),
      hsettings]
    decide
  have hbase : ∃ run ∈ Run.ofLogs logs, run.IsBaseline := by
    have hmem :
        ⟨some "A", some 1, some 1⟩ ∈ (Run.ofLogs logs).map (·.setting) := by
      rw [hsettings]
      decide
    obtain ⟨run, hrun, hsetting⟩ := List.mem_map.1 hmem
    exact ⟨run, hrun, by rw [hsetting], by rw [hsetting]⟩
  obtain ⟨-, -, hcharts, -⟩ :=
    caseSet_of_logs ⟨"charts"⟩ (fun run hrun => (hall run hrun).1)
      (fun run hrun => (hall run hrun).2) hwritten
  obtain ⟨_, sets, hcharts, -⟩ := hcharts hbase hnanos
  exact ⟨_, hwritten, sets.flatten, hcharts⟩

end Written

end BenchReport
