import BenchReport.Chart.Set
import BenchReport.Proofs.Table.Rows

/-!
# The charts of a case

A case has charts exactly if its table has one baseline and all times can be
divided by (`caseCharts_eq_ok_iff`). The speedups are then computed for the
whole table and found again by position when the rows of a partition are
charted; as each stands at the place of its row, the points of a chart are the
rows of the partition, one by one (`points_zip_map`).

The faults come in a fixed order. The baselines are counted before any time is
looked at, then the time of the only baseline is, and the times of all rows come
last, in the order of the file.
-/

namespace BenchReport

open Double (zero)

/-- The rows of one stream and one thread. -/
def Table.baselines (table : Table) : List Timing :=
  table.rows.filter fun t => t.xstreams = 1 && t.threads = 1

namespace Table

variable {table : Table} {output : Path} {b t : Timing}

/-! ## The baseline -/

theorem baselineTime_of_nil (h : table.baselines = []) :
    table.baselineTime = .error (.baselineNotFound table.name) := by
  have hfound : table.rows.filter Timing.isBaseline = [] := h
  rw [baselineTime, hfound]

theorem baselineTime_of_single (h : table.baselines = [b]) :
    table.baselineTime =
      if b.isValid then .ok b.nanos else
        .error (.invalidTiming table.name b) := by
  have hfound : table.rows.filter Timing.isBaseline = [b] := h
  rw [baselineTime, hfound]

theorem baselineTime_of_several (h : 2 ≤ table.baselines.length) :
    table.baselineTime =
      .error (.ambiguousBaseline table.name table.baselines.length) := by
  have hfound : table.rows.filter Timing.isBaseline = table.baselines := rfl
  rw [baselineTime, hfound]
  match hseveral : table.baselines with
  | [] => simp [hseveral] at h
  | [_] => simp [hseveral] at h
  | _ :: _ :: _ => rfl

theorem mem_of_baselines (h : table.baselines = [b]) : b ∈ table.rows := by
  have hmem : b ∈ table.baselines := by simp [h]
  exact (List.mem_filter.1 hmem).1

/-! ## The charts -/

theorem points_zip_map (table : Table) (ratio : Timing → Double) (n : UInt32)
    (metric : Metric) :
    metric.points (table.rows.zip (table.rows.map ratio)) n =
      (table.partition n).map fun t =>
        ⟨.ofNat t.threads.toNat, metric.value t (ratio t)⟩ := by
  rw [Metric.points, ← List.map_prod_left_eq_zip, List.filter_map, List.map_map]
  rfl

/-- The charts for some number of streams, with speedups against a baseline. -/
def streamCharts (table : Table) (output : Path) (b : Timing) (n : UInt32) :
    List Chart :=
  Metric.all.map (Metric.chart table.name (output.join table.name)
    (table.rows.zip (table.rows.map (b.nanos / ·.nanos))) n)

theorem streamCharts_eq (table : Table) (output : Path) (b : Timing)
    (n : UInt32) :
    table.streamCharts output b n =
      [.overThreads
        ((output.join table.name).join (Metric.fileName n .meanTime))
          (Metric.title n table.name .meanTime) Metric.meanTime.label
          ((table.partition n).map fun t =>
            ⟨.ofNat t.threads.toNat, t.seconds⟩),
        .overThreads
          ((output.join table.name).join (Metric.fileName n .meanTimeNanos))
          (Metric.title n table.name .meanTimeNanos) Metric.meanTimeNanos.label
          ((table.partition n).map fun t =>
            ⟨.ofNat t.threads.toNat, t.nanos / .ofNat 1000000000⟩),
        .overThreads
          ((output.join table.name).join (Metric.fileName n .speedup))
          (Metric.title n table.name .speedup) Metric.speedup.label
          ((table.partition n).map fun t =>
            ⟨.ofNat t.threads.toNat, b.nanos / t.nanos⟩)] := by
  simp only [streamCharts, Metric.all, List.map_cons, List.map_nil,
    Metric.chart, points_zip_map]
  rfl

theorem caseCharts_of_error {e : TimingError}
    (h : table.baselineTime = .error e) :
    caseCharts table output = .error e := by
  rw [caseCharts, h]
  rfl

theorem caseCharts_of_single (h : table.baselines = [b])
    (hb : b.isValid = true) :
    caseCharts table output = (table.speedups b.nanos).map fun speedups =>
      table.xstreams.flatMap fun n => Metric.all.map
        (Metric.chart table.name (output.join table.name)
          (table.rows.zip speedups) n) := by
  rw [caseCharts, baselineTime_of_single h, if_pos hb]
  rfl

theorem caseCharts_of_isValid (h : table.baselines = [b])
    (hvalid : ∀ t ∈ table.rows, t.isValid = true) :
    caseCharts table output =
      .ok (table.xstreams.flatMap (table.streamCharts output b)) := by
  rw [caseCharts_of_single h (hvalid b (mem_of_baselines h)),
    speedups_of_isValid hvalid]
  rfl

theorem caseCharts_of_first (h : table.baselines = [b]) (hb : b.isValid = true)
    {before after : List Timing} (hrows : table.rows = before ++ t :: after)
    (hbefore : ∀ u ∈ before, u.isValid = true) (ht : ¬ t.isValid = true) :
    caseCharts table output = .error (.invalidTiming table.name t) := by
  rw [caseCharts_of_single h hb, speedups_of_first hrows hbefore ht]
  rfl

theorem caseCharts_eq_ok_iff {charts : List Chart} :
    caseCharts table output = .ok charts ↔
      ∃ b, table.baselines = [b] ∧ (∀ t ∈ table.rows, t.isValid = true) ∧
        charts = table.xstreams.flatMap (table.streamCharts output b) := by
  constructor
  · intro h
    match hbaselines : table.baselines with
    | [] =>
        rw [caseCharts_of_error (baselineTime_of_nil hbaselines)] at h
        cases h
    | [b] =>
        by_cases hb : b.isValid = true
        · rw [caseCharts_of_single hbaselines hb, map_eq_ok_iff] at h
          obtain ⟨speedups, hspeedups, rfl⟩ := h
          have hvalid : ∀ t ∈ table.rows, t.isValid = true := by
            by_contra hinvalid
            push Not at hinvalid
            obtain ⟨t, herror⟩ := speedups_of_not_isValid hinvalid b.nanos
            cases hspeedups.symm.trans herror
          cases hspeedups.symm.trans (speedups_of_isValid hvalid b.nanos)
          exact ⟨b, rfl, hvalid, rfl⟩
        · have herror := baselineTime_of_single hbaselines
          rw [if_neg hb] at herror
          rw [caseCharts_of_error herror] at h
          cases h
    | first :: second :: rest =>
        have hseveral : 2 ≤ table.baselines.length := by simp [hbaselines]
        rw [caseCharts_of_error (baselineTime_of_several hseveral)] at h
        cases h
  · rintro ⟨b, hb, hvalid, rfl⟩
    exact caseCharts_of_isValid hb hvalid

/-! ## The points of all charts -/

theorem perm_flatMap_three {α β : Type} (f g h : α → β) (l : List α) :
    (l.map f ++ (l.map g ++ l.map h)).Perm
      (l.flatMap fun a => [f a, g a, h a]) := by
  have hlast : l.map h = l.flatMap fun a => [h a] := List.map_eq_flatMap
  have htwo := hlast ▸ List.map_append_flatMap_perm l g fun a => [h a]
  exact (htwo.append_left _).trans
    (List.map_append_flatMap_perm l f fun a => [g a, h a])

/-- All charts together have three points for each row. -/
theorem perm_points (table : Table) (output : Path) (b : Timing) :
    ((table.xstreams.flatMap (table.streamCharts output b)).flatMap
      (·.points)).Perm (table.rows.flatMap fun t =>
        [⟨.ofNat t.threads.toNat, t.seconds⟩,
          ⟨.ofNat t.threads.toNat, t.nanos / .ofNat 1000000000⟩,
          ⟨.ofNat t.threads.toNat, b.nanos / t.nanos⟩]) := by
  refine .trans ?_ ((perm_partitions table).flatMap_right _)
  rw [List.flatMap_assoc, List.flatMap_assoc]
  refine List.Perm.flatMap_left _ ?_
  intro n _
  have hthree := perm_flatMap_three
    (fun t : Timing => Point.mk (.ofNat t.threads.toNat) t.seconds)
    (fun t => ⟨.ofNat t.threads.toNat, t.nanos / .ofNat 1000000000⟩)
    (fun t => ⟨.ofNat t.threads.toNat, b.nanos / t.nanos⟩) (table.partition n)
  simpa [streamCharts_eq, Chart.overThreads] using hthree

/-- The charts of a case, for every table. They exist exactly if the table has
one baseline and all times can be divided by. Then there are three of them for
each number of streams, in the order in which the numbers first appear, and the
points of each are the rows with that number in their order: a row stands in one
partition only and has one point on each of its three charts. Else the first of
four faults is told: no baseline, several of them, a baseline with a bad time, a
row with one. -/
theorem caseCharts_exact (table : Table) (output : Path) :
    ((∃ charts, caseCharts table output = .ok charts) ↔
      table.baselines.length = 1 ∧
      ∀ t ∈ table.rows, t.nanos.isFinite = true ∧ zero < t.nanos) ∧
    (∀ charts, caseCharts table output = .ok charts →
      ∃ b, table.baselines = [b] ∧
      (charts = table.xstreams.flatMap fun n =>
        [.overThreads
          ((output.join table.name).join (Metric.fileName n .meanTime))
            (Metric.title n table.name .meanTime) Metric.meanTime.label
            ((table.partition n).map fun t =>
              ⟨.ofNat t.threads.toNat, t.seconds⟩),
          .overThreads
            ((output.join table.name).join (Metric.fileName n .meanTimeNanos))
            (Metric.title n table.name .meanTimeNanos)
            Metric.meanTimeNanos.label
            ((table.partition n).map fun t =>
              ⟨.ofNat t.threads.toNat, t.nanos / .ofNat 1000000000⟩),
          .overThreads
            ((output.join table.name).join (Metric.fileName n .speedup))
            (Metric.title n table.name .speedup) Metric.speedup.label
            ((table.partition n).map fun t =>
              ⟨.ofNat t.threads.toNat, b.nanos / t.nanos⟩)]) ∧
      (charts.flatMap (·.points)).Perm (table.rows.flatMap fun t =>
        [⟨.ofNat t.threads.toNat, t.seconds⟩,
          ⟨.ofNat t.threads.toNat, t.nanos / .ofNat 1000000000⟩,
          ⟨.ofNat t.threads.toNat, b.nanos / t.nanos⟩])) ∧
    (table.xstreams.Nodup ∧
      (∀ n, n ∈ table.xstreams ↔ ∃ t ∈ table.rows, t.xstreams = n) ∧
      (table.xstreams.Pairwise fun m n =>
        (table.rows.map (·.xstreams)).idxOf m <
          (table.rows.map (·.xstreams)).idxOf n) ∧
      (table.xstreams.flatMap table.partition).Perm table.rows) ∧
    (table.baselines = [] → caseCharts table output =
      .error (.baselineNotFound table.name)) ∧
    (2 ≤ table.baselines.length → caseCharts table output =
      .error (.ambiguousBaseline table.name table.baselines.length)) ∧
    (∀ b, table.baselines = [b] →
      (¬ (b.nanos.isFinite = true ∧ zero < b.nanos) →
        caseCharts table output = .error (.invalidTiming table.name b)) ∧
      ((b.nanos.isFinite = true ∧ zero < b.nanos) →
        ∀ before t after, table.rows = before ++ t :: after →
          (∀ u ∈ before, u.nanos.isFinite = true ∧ zero < u.nanos) →
          ¬ (t.nanos.isFinite = true ∧ zero < t.nanos) →
          caseCharts table output = .error (.invalidTiming table.name t))) := by
  simp only [← Timing.isValid_iff]
  refine ⟨?_, ?_, ?_, ?_, ?_, ?_⟩
  · simp only [caseCharts_eq_ok_iff, List.length_eq_one_iff]
    constructor
    · rintro ⟨-, b, hb, hvalid, -⟩
      exact ⟨⟨b, hb⟩, hvalid⟩
    · rintro ⟨⟨b, hb⟩, hvalid⟩
      exact ⟨_, b, hb, hvalid, rfl⟩
  · intro charts h
    obtain ⟨b, hb, -, rfl⟩ := caseCharts_eq_ok_iff.1 h
    refine ⟨b, hb, ?_, perm_points table output b⟩
    exact List.flatMap_congr fun n _ => streamCharts_eq table output b n
  · exact ⟨table.nodup_xstreams, fun n => mem_xstreams, table.pairwise_xstreams,
      table.perm_partitions⟩
  · intro h
    exact caseCharts_of_error (baselineTime_of_nil h)
  · intro h
    exact caseCharts_of_error (baselineTime_of_several h)
  · intro b hb
    constructor
    · intro hinvalid
      have herror := baselineTime_of_single hb
      rw [if_neg hinvalid] at herror
      exact caseCharts_of_error herror
    · intro hvalid before t after hrows hbefore ht
      exact caseCharts_of_first hb hvalid hrows hbefore ht

/-- A baseline between two rows of four streams. -/
def tableOfThree : Table where
  name := "three"
  rows := [⟨4, 1, zero, .ofNat 20⟩, ⟨1, 1, zero, .ofNat 40⟩,
    ⟨4, 2, zero, .ofNat 10⟩]

/-- The same rows and one without a time. -/
def tableOfFour : Table where
  name := "four"
  rows := tableOfThree.rows ++ [⟨2, 1, zero, zero⟩]

theorem caseCharts_exact_of_three :
    (∃ charts, caseCharts tableOfThree ⟨"out"⟩ = .ok charts ∧
      charts.length = 6 ∧
      (charts.flatMap (·.points)).length = 9) ∧
    caseCharts tableOfFour ⟨"out"⟩ =
      .error (.invalidTiming "four" ⟨2, 1, zero, zero⟩) := by
  obtain ⟨hiff, hcharts, -⟩ := caseCharts_exact tableOfThree ⟨"out"⟩
  obtain ⟨-, -, -, -, -, hfaults⟩ := caseCharts_exact tableOfFour ⟨"out"⟩
  constructor
  · obtain ⟨charts, h⟩ := hiff.2 ⟨by decide, by decide +kernel⟩
    obtain ⟨b, -, hlist, hpoints⟩ := hcharts charts h
    refine ⟨charts, h, ?_, ?_⟩
    · rw [hlist]
      rfl
    · rw [hpoints.length_eq]
      rfl
  · obtain ⟨-, hrow⟩ := hfaults ⟨1, 1, zero, .ofNat 40⟩ (by decide +kernel)
    exact hrow (by decide +kernel) tableOfThree.rows ⟨2, 1, zero, zero⟩ [] rfl
      (by decide +kernel) (by decide +kernel)

end Table

end BenchReport
