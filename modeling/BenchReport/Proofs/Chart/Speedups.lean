import BenchReport.Proofs.Chart.Case
import BenchReport.Proofs.Double.Quotient

/-!
# Anchored speedups

The speedups of a case are computed at once, against the one baseline of the
whole table, and spread over the charts by position. Read back by position, each
point stands for one row, and together they stand for all rows
(`speedupPoints_eq`). So whatever holds of the quotients holds across the
charts: the baseline has the speedup of exactly one in whichever place its
partition comes, and of two rows of any partitions the one with less time has no
less speedup.
-/

namespace BenchReport

open Double (zero)

/-- A point of a chart of speedups, with the number of streams that the chart is
for and the row that the point stands for. -/
structure SpeedupPoint where
  xstreams : UInt32
  row : Timing
  point : Point
deriving DecidableEq, Repr

namespace Table

variable {table : Table} {output : Path} {b t : Timing} {charts : List Chart}

/-- The charts of speedups among charts, in their order, each with the number of
streams that it is for. -/
def speedupCharts (table : Table) (charts : List Chart) :
    List (UInt32 × Chart) :=
  table.xstreams.zip (charts.filter (·.yLabel = Metric.speedup.label))

/-- The points of the charts of speedups, each with the row at its place among
those with the chart's number of streams. -/
def speedupPoints (table : Table) (charts : List Chart) : List SpeedupPoint :=
  (table.speedupCharts charts).flatMap fun (n, chart) =>
    ((table.partition n).zip chart.points).map fun (t, p) => ⟨n, t, p⟩

/-- The point for a row, with speedups against a baseline. -/
def speedupPoint (b t : Timing) : SpeedupPoint :=
  ⟨t.xstreams, t, ⟨.ofNat t.threads.toNat, b.nanos / t.nanos⟩⟩

/-- The chart of speedups for some number of streams. -/
def speedupChart (table : Table) (output : Path) (b : Timing) (n : UInt32) :
    Chart :=
  .overThreads ((output.join table.name).join (Metric.fileName n .speedup))
    (Metric.title n table.name .speedup) Metric.speedup.label
    ((table.partition n).map fun t => (speedupPoint b t).point)

/-! ## Points by position -/

theorem filter_streamCharts (table : Table) (output : Path) (b : Timing)
    (n : UInt32) :
    (table.streamCharts output b n).filter (·.yLabel = Metric.speedup.label) =
      [table.speedupChart output b n] := by
  have hother : Metric.meanTime.label ≠ Metric.speedup.label := by decide
  have hnanos : Metric.meanTimeNanos.label ≠ Metric.speedup.label := by decide
  rw [streamCharts_eq]
  simp only [Chart.overThreads, List.filter_cons, List.filter_nil,
    hother, hnanos]
  rfl

theorem filter_charts (table : Table) (output : Path) (b : Timing) :
    (table.xstreams.flatMap (table.streamCharts output b)).filter
        (·.yLabel = Metric.speedup.label) =
      table.xstreams.map (table.speedupChart output b) := by
  rw [List.filter_flatMap, List.map_eq_flatMap]
  exact List.flatMap_congr fun n _ => table.filter_streamCharts output b n

theorem speedupCharts_eq (table : Table) (output : Path) (b : Timing) :
    table.speedupCharts (table.xstreams.flatMap (table.streamCharts output b)) =
      table.xstreams.map fun n => (n, table.speedupChart output b n) := by
  rw [speedupCharts, filter_charts, List.map_prod_left_eq_zip]

theorem speedupPoints_eq (table : Table) (output : Path) (b : Timing) :
    table.speedupPoints (table.xstreams.flatMap (table.streamCharts output b)) =
      (table.xstreams.flatMap table.partition).map (speedupPoint b) := by
  rw [speedupPoints, speedupCharts_eq, List.flatMap_map, List.map_flatMap]
  refine List.flatMap_congr fun n _ => ?_
  show ((table.partition n).zip
      ((table.partition n).map fun t => (speedupPoint b t).point)).map
    _ = _
  rw [← List.map_prod_left_eq_zip, List.map_map]
  refine List.map_congr_left fun t ht => ?_
  obtain rfl : t.xstreams = n := by simpa using (List.mem_filter.1 ht).2
  rfl

/-! ## The baseline -/

theorem isBaseline_of_baselines (h : table.baselines = [b]) :
    b.isBaseline = true :=
  (List.mem_filter.1 (h ▸ List.mem_singleton_self b : b ∈ table.baselines)).2

theorem speedupPoint_baseline (hb : b.isBaseline = true)
    (hvalid : b.isValid = true) :
    speedupPoint b b = ⟨1, b, ⟨.ofNat 1, .ofNat 1⟩⟩ := by
  obtain ⟨hxstreams, hthreads⟩ := Timing.isBaseline_iff.1 hb
  obtain ⟨hfinite, hpos⟩ := Timing.isValid_iff.1 hvalid
  rw [speedupPoint, hxstreams, hthreads, Double.div_self hfinite hpos]
  rfl

theorem x_speedupPoint_eq_one_iff :
    (speedupPoint b t).point.x = .ofNat 1 ↔ t.threads = 1 := by
  have hthreads : t.threads.toNat < 2 ^ 53 :=
    t.threads.toNat_lt.trans (by decide)
  rw [← UInt32.toNat_inj]
  exact Double.ofNat_inj hthreads (by decide)

/-- Only the baseline has a point over one thread in the chart for
one stream. -/
theorem filter_points_one (h : table.baselines = [b])
    (hvalid : b.isValid = true) :
    (table.speedupChart output b 1).points.filter (·.x = .ofNat 1) =
      [⟨.ofNat 1, .ofNat 1⟩] := by
  have hrows :
      (table.partition 1).filter
        (fun t => (speedupPoint b t).point.x = .ofNat 1) =
      [b] := by
    rw [← h, baselines, partition, List.filter_filter]
    refine List.filter_congr fun t _ => ?_
    rw [Bool.and_comm, decide_eq_decide.2 x_speedupPoint_eq_one_iff]
  have hpoint :=
    congrArg (·.point)
      (speedupPoint_baseline (isBaseline_of_baselines h) hvalid)
  calc (table.speedupChart output b 1).points.filter (·.x = .ofNat 1)
      = ((table.partition 1).filter fun t => (speedupPoint b t).point.x =
        .ofNat 1).map
          fun t => (speedupPoint b t).point := List.filter_map
    _ = [(speedupPoint b b).point] := by rw [hrows, List.map_singleton]
    _ = [⟨.ofNat 1, .ofNat 1⟩] := by rw [hpoint]

theorem filter_speedupPoints (h : table.baselines = [b])
    (hvalid : b.isValid = true) :
    (table.speedupPoints
      (table.xstreams.flatMap (table.streamCharts output b))).filter
        (·.row.isBaseline) = [⟨1, b, ⟨.ofNat 1, .ofNat 1⟩⟩] := by
  have hrows :
      (table.xstreams.flatMap table.partition).filter Timing.isBaseline =
        [b] := by
    refine List.perm_singleton.1 ?_
    rw [← h]
    exact table.perm_partitions.filter _
  rw [speedupPoints_eq, ← speedupPoint_baseline
    (isBaseline_of_baselines h) hvalid, ← List.map_singleton, ← hrows]
  exact List.filter_map

/-! ## Order -/

theorem y_speedupPoint_le {u : Timing} (hb : b.isValid = true)
    (ht : t.isValid = true) (hu : u.isValid = true) (hle : t.nanos ≤ u.nanos) :
    (speedupPoint b u).point.y ≤ (speedupPoint b t).point.y := by
  obtain ⟨hfinite, hpos⟩ := Timing.isValid_iff.1 hb
  obtain ⟨htfinite, htpos⟩ := Timing.isValid_iff.1 ht
  exact Double.div_le_div_of_le hfinite hpos htfinite htpos
    (Timing.isValid_iff.1 hu).1 hle

/-! ## All speedups -/

/-- Whether charts have one chart of speedups for each number of streams, and
its points are those of the rows with that number, each over the threads of
its row. -/
structure SplitsSpeedups (table : Table) (output : Path) (charts : List Chart) :
    Prop where
  streams : (table.speedupCharts charts).map (·.1) = table.xstreams
  labelled : (table.speedupCharts charts).map (·.2) =
    charts.filter (·.yLabel = Metric.speedup.label)
  placed : ∀ n chart, (n, chart) ∈ table.speedupCharts charts →
    chart.path = (output.join table.name).join (Metric.fileName n .speedup) ∧
    chart.points.length = (table.partition n).length
  rows : ((table.speedupPoints charts).map (·.row)).Perm table.rows
  points : ∀ p ∈ table.speedupPoints charts,
    p.xstreams = p.row.xstreams ∧ p.point.x = .ofNat p.row.threads.toNat

theorem mem_speedupCharts {n : UInt32} {chart : Chart} :
    (n, chart) ∈ table.speedupCharts
      (table.xstreams.flatMap (table.streamCharts output b)) ↔
        n ∈ table.xstreams ∧ chart = table.speedupChart output b n := by
  rw [speedupCharts_eq, List.mem_map]
  constructor
  · rintro ⟨m, hm, heq⟩
    cases heq
    exact ⟨hm, rfl⟩
  · rintro ⟨hn, rfl⟩
    exact ⟨n, hn, rfl⟩

theorem eq_of_mem_speedupPoints {p : SpeedupPoint}
    (h : p ∈ table.speedupPoints
      (table.xstreams.flatMap (table.streamCharts output b))) :
    p.row ∈ table.rows ∧ p = speedupPoint b p.row := by
  rw [speedupPoints_eq] at h
  obtain ⟨t, ht, rfl⟩ := List.mem_map.1 h
  exact ⟨table.perm_partitions.mem_iff.1 ht, rfl⟩

theorem splitsSpeedups (table : Table) (output : Path) (b : Timing) :
    table.SplitsSpeedups output
      (table.xstreams.flatMap (table.streamCharts output b)) where
  streams := by
    rw [speedupCharts_eq, List.map_map]
    exact List.map_id _
  labelled := by
    rw [speedupCharts_eq, filter_charts, List.map_map]
    rfl
  placed n chart hmem := by
    obtain ⟨-, rfl⟩ := mem_speedupCharts.1 hmem
    exact ⟨rfl, List.length_map _⟩
  rows := by
    rw [speedupPoints_eq, List.map_map]
    exact (List.map_id _).symm ▸ table.perm_partitions
  points p hp := by
    rw [(eq_of_mem_speedupPoints hp).2]
    exact ⟨rfl, rfl⟩

/-- The speedups of a case have one anchor and are antitone. Exactly one point
of the charts of speedups stands for a baseline. It is in the chart for one
stream, over one thread, where no other point of that chart is, and its speedup
is exactly one. Of two rows in whichever partitions, the one that takes no more
time has no less speedup. -/
theorem speedups_anchored (h : caseCharts table output = .ok charts) :
    table.SplitsSpeedups output charts ∧
    (∃ b, (table.speedupPoints charts).filter (·.row.isBaseline) =
      [⟨1, b, ⟨.ofNat 1, .ofNat 1⟩⟩]) ∧
    (∃ chart, (∀ other, (1, other) ∈ table.speedupCharts charts ↔
      other = chart) ∧
      chart.points.filter (·.x = .ofNat 1) = [⟨.ofNat 1, .ofNat 1⟩]) ∧
    ∀ p ∈ table.speedupPoints charts, ∀ q ∈ table.speedupPoints charts,
      p.row.nanos ≤ q.row.nanos → q.point.y ≤ p.point.y := by
  obtain ⟨b, hb, hvalid, rfl⟩ := caseCharts_eq_ok_iff.1 h
  have hmem := mem_of_baselines hb
  have hbaseline := hvalid b hmem
  refine ⟨table.splitsSpeedups output b, ⟨b, filter_speedupPoints hb hbaseline⟩,
    ⟨table.speedupChart output b 1, fun other => ?_,
      filter_points_one hb hbaseline⟩, ?_⟩
  · have hone : 1 ∈ table.xstreams :=
      mem_xstreams.2
        ⟨b, hmem, (Timing.isBaseline_iff.1 (isBaseline_of_baselines hb)).1⟩
    rw [mem_speedupCharts, and_iff_right hone]
  · intro p hp q hq hle
    obtain ⟨hprow, hp⟩ := eq_of_mem_speedupPoints hp
    obtain ⟨hqrow, hq⟩ := eq_of_mem_speedupPoints hq
    rw [hp, hq]
    exact y_speedupPoint_le hbaseline (hvalid _ hprow) (hvalid _ hqrow) hle

/-- The baseline of three rows is in the second partition, and a row of the
first one takes half of its time. -/
theorem speedups_anchored_three :
    ∃ charts, caseCharts tableOfThree ⟨"out"⟩ = .ok charts ∧
      tableOfThree.speedupPoints charts =
        [⟨4, ⟨4, 1, zero, .ofNat 20⟩, ⟨.ofNat 1, .ofNat 2⟩⟩,
          ⟨4, ⟨4, 2, zero, .ofNat 10⟩, ⟨.ofNat 2, .ofNat 4⟩⟩,
          ⟨1, ⟨1, 1, zero, .ofNat 40⟩, ⟨.ofNat 1, .ofNat 1⟩⟩] ∧
      tableOfThree.SplitsSpeedups ⟨"out"⟩ charts ∧
      ∀ p ∈ tableOfThree.speedupPoints charts,
        ∀ q ∈ tableOfThree.speedupPoints charts,
        p.row.nanos ≤ q.row.nanos → q.point.y ≤ p.point.y := by
  have hcharts : caseCharts tableOfThree ⟨"out"⟩ = .ok _ :=
    caseCharts_of_isValid (b := ⟨1, 1, zero, .ofNat 40⟩) (by decide +kernel)
      (by decide +kernel)
  obtain ⟨hsplits, -, -, hantitone⟩ := speedups_anchored hcharts
  refine ⟨_, hcharts, ?_, hsplits, hantitone⟩
  rw [speedupPoints_eq]
  decide +kernel

end Table

end BenchReport
