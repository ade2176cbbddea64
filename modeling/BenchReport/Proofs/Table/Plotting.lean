import BenchReport.Proofs.Chart.Joining
import BenchReport.Proofs.Chart.Range
import BenchReport.Proofs.Double.Quotient
import BenchReport.Proofs.Outcome
import BenchReport.Proofs.Table.Charts

/-!
# What charts have on their axes

A chart has a point for each row with its number of streams, so it is never
without points. Threads are counts of 32 bits: finite, moderate, and covered by
the horizontal axis.

The values over them come by different ways. A time that can be divided by is
positive, so a quotient is never less than zero and always a number; the time in
nanoseconds is divided by a thousand million and ends far below the greatest
doubles, while a speedup or a ratio can be too large for a finite double. The
times in seconds are as the table gives them and need not be numbers. So the
vertical axis covers what is a number as long as nothing is infinite, and it
goes from zero to one otherwise; over times in nanoseconds it is always finite.
-/

namespace BenchReport

open Double

/-! ## Moderate numbers -/

theorem abs_le_of_units_le {s : Bool} {m : Magnitude}
    (h : m.units ≤ AxisRange.reach.units) :
    (signed s m).abs ≤ .ofNat (Nat.pow 2 1022) := by
  rw [AxisRange.ofNat_reach]
  refine Double.le_iff.2 ⟨signed_ne_nan _ _, signed_ne_nan _ _, ?_⟩
  show (signed false m).value ≤ _
  rw [value_positive, value_positive]
  exact Int.ofNat_le.2 h

theorem abs_ofNat_le {n : Nat} (hn : n < 2 ^ 32) :
    (Double.ofNat n).abs ≤ .ofNat (Nat.pow 2 1022) := by
  have hreach : 2 ^ 32 * unitsPerOne ≤ AxisRange.reach.units := by
    decide +kernel
  rw [ofNat_eq]
  refine abs_le_of_units_le (Magnitude.units_nearest_le Nat.one_pos ?_)
  rw [Nat.mul_one]
  exact (Nat.mul_le_mul_right _ hn.le).trans hreach

/-! ## Times in nanoseconds -/

namespace Timing

variable {t : Timing}

/-- The number of nanoseconds in a second. -/
def second : Magnitude := .nearest (1000000000 * unitsPerOne) 1

theorem ofNat_second : Double.ofNat 1000000000 = .signed false second :=
  ofNat_eq _

theorem isFinite_second : second.isFinite = true := by decide +kernel

theorem le_units_second : unitsPerOne ≤ second.units := by decide +kernel

theorem zero_lt_second : zero < signed false second := by decide +kernel

theorem isFinite_nanosAsSeconds (h : t.isValid = true) :
    t.nanosAsSeconds.isFinite = true := by
  obtain ⟨hfinite, hpos⟩ := isValid_iff.1 h
  obtain ⟨m, hm, hfinite, -⟩ := exists_magnitude_of_pos hfinite hpos
  rw [nanosAsSeconds, ofNat_second, hm]
  exact isFinite_div hfinite isFinite_second le_units_second

/-- A thousand million is more than four, and a quarter of any finite double is
moderate. -/
theorem abs_nanosAsSeconds_le (h : t.isValid = true) :
    t.nanosAsSeconds.abs ≤ .ofNat (Nat.pow 2 1022) := by
  have hquarter : Magnitude.infinity.units = AxisRange.reach.units * 4 := by
    decide +kernel
  have hfour : 4 * unitsPerOne ≤ second.units := by decide +kernel
  obtain ⟨hfinite, hpos⟩ := isValid_iff.1 h
  obtain ⟨m, hm, hfinite, -⟩ := exists_magnitude_of_pos hfinite hpos
  have hsecond : 0 < second.units :=
    Nat.lt_of_lt_of_le unitsPerOne_pos le_units_second
  rw [nanosAsSeconds, ofNat_second, hm,
    div_of_finite hfinite isFinite_second (Magnitude.units_pos_iff.1 hsecond)]
  refine abs_le_of_units_le (Magnitude.units_nearest_le hsecond ?_)
  calc m.units * unitsPerOne
      ≤ AxisRange.reach.units * 4 * unitsPerOne := by
        rw [← hquarter]
        exact Nat.mul_le_mul_right _ (Magnitude.isFinite_iff.1 hfinite).le
    _ = AxisRange.reach.units * (4 * unitsPerOne) := Nat.mul_assoc ..
    _ ≤ AxisRange.reach.units * second.units := Nat.mul_le_mul_left _ hfour

theorem zero_le_nanosAsSeconds (h : t.isValid = true) :
    zero ≤ t.nanosAsSeconds := by
  obtain ⟨hfinite, hpos⟩ := isValid_iff.1 h
  rw [nanosAsSeconds, ofNat_second]
  exact zero_le_div hfinite (Double.le_of_lt hpos) isFinite_second
    zero_lt_second

end Timing

/-! ## Axes of charts -/

/-- Whether a chart has points over finite counts that its horizontal axis
covers, and a vertical axis that covers the numbers among the values. The latter
does so unless a value is infinite or none is a number, and it is finite if the
numbers are not near the greatest ones. -/
structure Chart.Fits (chart : Chart) : Prop where
  points_ne_nil : chart.points ≠ []
  isFinite_x : ∀ p ∈ chart.points, p.x.isFinite = true
  isFinite_xRange :
    chart.xRange.first.isFinite = true ∧ chart.xRange.last.isFinite = true
  encloses_xRange : chart.xRange.Encloses (chart.points.map (·.x))
  yRange_eq_unit :
    ((∃ p ∈ chart.points, p.y.IsInfinite) ∨ ∀ p ∈ chart.points, p.y = .nan) →
    chart.yRange = .unit
  encloses_yRange : (∀ p ∈ chart.points, ¬ p.y.IsInfinite) →
    (∃ p ∈ chart.points, p.y ≠ .nan) →
      chart.yRange.Encloses (chart.points.map (·.y))
  isFinite_yRange :
    (∀ p ∈ chart.points, p.y ≠ .nan → p.y.abs ≤ .ofNat (Nat.pow 2 1022)) →
    (∃ p ∈ chart.points, p.y ≠ .nan) →
    chart.yRange.first.isFinite = true ∧ chart.yRange.last.isFinite = true

theorem Chart.fits {chart : Chart} (hne : chart.points ≠ [])
    (hx : ∀ p ∈ chart.points, ∃ n < 2 ^ 32, p.x = .ofNat n) : chart.Fits := by
  obtain ⟨p, hp⟩ := List.exists_mem_of_ne_nil _ hne
  have hfinite : ∀ p ∈ chart.points, p.x.isFinite = true := by
    intro p hp
    obtain ⟨n, hn, hpx⟩ := hx p hp
    rw [hpx]
    exact isFinite_ofNat (hn.trans (by decide))
  have hvalues : ∀ v ∈ chart.points.map (·.x), v ≠ .nan → v.isFinite = true :=
    List.forall_mem_map.2 fun p hp _ => hfinite p hp
  have hmoderate : ∀ v ∈ chart.points.map (·.x), v ≠ .nan →
      v.abs ≤ .ofNat (Nat.pow 2 1022) :=
    List.forall_mem_map.2 fun p hp _ => by
      obtain ⟨n, hn, hpx⟩ := hx p hp
      rw [hpx]
      exact abs_ofNat_le hn
  have hmem := List.mem_map_of_mem (f := (·.x)) hp
  have hnumber := ne_nan_of_isFinite (hfinite p hp)
  refine ⟨hne, hfinite, AxisRange.around_isFinite hmem hnumber hmoderate,
    AxisRange.around_encloses hmem hnumber hvalues, ?_, ?_, ?_⟩
  · rintro (⟨p, hp, hinfinite⟩ | hnan)
    · exact AxisRange.around_of_isInfinite (List.mem_map_of_mem hp) hinfinite
    · exact AxisRange.around_of_nan (List.forall_mem_map.2 hnan)
  · rintro hall ⟨p, hp, hnumber⟩
    exact AxisRange.around_encloses (List.mem_map_of_mem hp) hnumber
      (List.forall_mem_map.2 fun p hp hnumber =>
        isFinite_of_not_isInfinite hnumber (hall p hp))
  · rintro hall ⟨p, hp, hnumber⟩
    exact AxisRange.around_isFinite (List.mem_map_of_mem hp) hnumber
      (List.forall_mem_map.2 hall)

/-- An axis of times in nanoseconds that can be divided by is finite. -/
theorem Chart.Fits.isFinite_of_nanos {chart : Chart} (hfits : chart.Fits)
    {rows : List Timing}
    (hy : chart.points.map (·.y) = rows.map Timing.nanosAsSeconds)
    (hvalid : ∀ t ∈ rows, t.isValid = true) :
    chart.yRange.first.isFinite = true ∧ chart.yRange.last.isFinite = true := by
  have hmoderate : ∀ y ∈ chart.points.map (·.y),
      y.isFinite = true ∧ y.abs ≤ .ofNat (Nat.pow 2 1022) := by
    rw [hy]
    exact List.forall_mem_map.2 fun t ht =>
      ⟨Timing.isFinite_nanosAsSeconds (hvalid t ht),
        Timing.abs_nanosAsSeconds_le (hvalid t ht)⟩
  obtain ⟨p, hp⟩ := List.exists_mem_of_ne_nil _ hfits.points_ne_nil
  exact hfits.isFinite_yRange
    (fun p hp _ => (hmoderate _ (List.mem_map_of_mem hp)).2)
    ⟨p, hp, ne_nan_of_isFinite (hmoderate _ (List.mem_map_of_mem hp)).1⟩

/-! ## Charts of a case -/

namespace Table

variable {table tree simple : Table} {output : Path} {n : UInt32}

/-- If a case has charts, they show speedups against one of its rows, and the
times of all rows can be divided by. -/
theorem caseCharts_eq_ok {charts : List Chart}
    (h : caseCharts table output = .ok charts) :
    (∀ t ∈ table.rows, t.isValid = true) ∧ ∃ baseline ∈ table.rows,
      charts = table.xstreams.flatMap fun n => Metric.all.map
        (Metric.chart table.name (output.join table.name)
          (table.rows.zip (table.rows.map (baseline.nanos / ·.nanos))) n) := by
  obtain ⟨baseline, hbaseline, hvalid, rfl⟩ := caseCharts_eq_ok_iff.1 h
  exact ⟨hvalid, baseline, mem_of_baselines hbaseline, rfl⟩

end Table

/-- What is known of the values that a metric gives for some rows: the times in
seconds are taken as they are, those in nanoseconds become finite times that are
not negative, and a speedup is a number that is not negative. -/
def Metric.Yields (rows : List Timing) (values : List Double) : Metric → Prop
  | meanTime => values = rows.map (·.seconds)
  | meanTimeNanos => ∀ v ∈ values, v.isFinite = true ∧ zero ≤ v
  | speedup => ∀ v ∈ values, zero ≤ v

theorem Metric.yields {rows : List Timing} {baseline : Timing}
    (hbaseline : baseline.isValid = true)
    (hvalid : ∀ t ∈ rows, t.isValid = true) (metric : Metric) :
    metric.Yields rows
      (rows.map fun t => metric.value t (baseline.nanos / t.nanos)) := by
  obtain ⟨hfinite, hpos⟩ := Timing.isValid_iff.1 hbaseline
  cases metric with
  | meanTime => rfl
  | meanTimeNanos =>
      exact List.forall_mem_map.2 fun t ht =>
        ⟨Timing.isFinite_nanosAsSeconds (hvalid t ht),
          Timing.zero_le_nanosAsSeconds (hvalid t ht)⟩
  | speedup =>
      refine List.forall_mem_map.2 fun t ht => ?_
      obtain ⟨hnanos, hdivisor⟩ := Timing.isValid_iff.1 (hvalid t ht)
      exact zero_le_div hfinite (Double.le_of_lt hpos) hnanos hdivisor

/-- A chart of a case has a point for each row of its partition. -/
theorem Metric.points_chart (table : Table) (ratio : Timing → Double)
    (directory : Path) (n : UInt32) (metric : Metric) :
    (metric.chart table.name directory
      (table.rows.zip (table.rows.map ratio)) n).points =
      (table.partition n).map fun t =>
        ⟨.ofNat t.threads.toNat, metric.value t (ratio t)⟩ :=
  table.points_zip_map ratio n metric

theorem exists_count (threads : UInt32) :
    ∃ n < 2 ^ 32, Double.ofNat threads.toNat = .ofNat n :=
  ⟨threads.toNat, UInt32.toNat_lt threads, rfl⟩

theorem caseCharts_fit {table : Table} {output : Path} {charts : List Chart}
    (h : caseCharts table output = .ok charts) {chart : Chart}
    (hchart : chart ∈ charts) :
    chart.Fits ∧ ∃ n ∈ table.xstreams, ∃ metric : Metric,
      chart.path = (output.join table.name).join (metric.fileName n) ∧
      metric.Yields (table.partition n) (chart.points.map (·.y)) ∧
      (metric = .meanTimeNanos →
        chart.yRange.first.isFinite = true ∧
          chart.yRange.last.isFinite = true) := by
  obtain ⟨hvalid, baseline, hbaseline, rfl⟩ := Table.caseCharts_eq_ok h
  obtain ⟨n, hn, hmetrics⟩ := List.mem_flatMap.1 hchart
  obtain ⟨metric, -, rfl⟩ := List.mem_map.1 hmetrics
  have hpoints := Metric.points_chart table (baseline.nanos / ·.nanos)
    (output.join table.name) n metric
  have hvalues := congrArg (List.map Point.y) hpoints
  rw [List.map_map] at hvalues
  have hrows : ∀ t ∈ table.partition n, t.isValid = true := fun t ht =>
    hvalid t (List.mem_filter.1 ht).1
  have hfits : (Metric.chart table.name (output.join table.name)
      (table.rows.zip (table.rows.map (baseline.nanos / ·.nanos))) n
        metric).Fits := by
    refine Chart.fits ?_ ?_
    · rw [hpoints]
      exact mt List.map_eq_nil_iff.1 (Table.partition_ne_nil hn)
    · rw [hpoints]
      exact List.forall_mem_map.2 fun t _ => exists_count t.threads
  refine ⟨hfits, n, hn, metric, rfl, ?_, ?_⟩
  · rw [hvalues]
    exact Metric.yields (hvalid baseline hbaseline) hrows metric
  · rintro rfl
    exact hfits.isFinite_of_nanos hvalues hrows

/-! ## Charts of a comparison -/

namespace Table

variable {tree simple : Table} {n : UInt32}

theorem ratios_eq_ok {ratios : List (UInt32 × Double)}
    (h : tree.ratios simple n = .ok ratios) :
    ratios.length = (tree.partition n).length ∧ ∀ p ∈ ratios, zero ≤ p.2 := by
  refine ⟨(forall₂_of_ratios h).length_eq.symm, ?_⟩
  intro pair hpair
  have htogether := goTogether_of_ratios h
  rw [ratios_of_goTogether htogether] at h
  obtain ⟨t, ht, hratio⟩ := exists_of_mem_mapM h hpair
  obtain ⟨p, hp⟩ := htogether.exists_partner ht
  obtain ⟨hvalid, hdividend, rfl⟩ := (pairRatio_eq_ok_iff hp).1 hratio
  obtain ⟨hfinite, hpos⟩ := Timing.isValid_iff.1 hvalid
  obtain ⟨hdividend, hzero⟩ := isDividend_iff.1 hdividend
  exact zero_le_div hdividend hzero hfinite hpos

end Table

theorem comparisonCharts_fit {tree simple : Table} {c : Comparison}
    {output : Path} {charts : List Chart}
    (h : comparisonCharts tree simple c output = .ok charts) {chart : Chart}
    (hchart : chart ∈ charts) :
    chart.Fits ∧ ∀ p ∈ chart.points, zero ≤ p.y := by
  obtain ⟨n, hn, h⟩ := exists_of_mem_mapM h hchart
  obtain ⟨ratios, hratios, rfl⟩ := Comparison.chart_eq_ok_iff.1 h
  obtain ⟨hlength, hzero⟩ := Table.ratios_eq_ok hratios
  refine ⟨Chart.fits ?_ ?_, ?_⟩
  · refine mt List.map_eq_nil_iff.1 fun hnil => Table.partition_ne_nil hn ?_
    rw [hnil] at hlength
    exact List.eq_nil_of_length_eq_zero hlength.symm
  · exact List.forall_mem_map.2 fun p _ => exists_count p.1
  · exact List.forall_mem_map.2 hzero

/-! ## All charts -/

/-- All charts of a case and of a comparison have points that their axes cover,
as far as the values allow. The values are checked as divisors are: those from
nanoseconds are not negative and have a finite axis, and only a quotient can be
infinite; those from seconds are not checked at all. -/
theorem charts_fit (table tree simple : Table) (c : Comparison)
    (output : Path) :
    (∀ charts, caseCharts table output = .ok charts → ∀ chart ∈ charts,
      chart.Fits ∧ ∃ n ∈ table.xstreams, ∃ metric : Metric,
        chart.path = (output.join table.name).join (metric.fileName n) ∧
        metric.Yields (table.partition n) (chart.points.map (·.y)) ∧
        (metric = .meanTimeNanos →
          chart.yRange.first.isFinite = true ∧
            chart.yRange.last.isFinite = true)) ∧
    (∀ charts, comparisonCharts tree simple c output = .ok charts →
      ∀ chart ∈ charts,
      chart.Fits ∧ ∀ p ∈ chart.points, zero ≤ p.y) :=
  ⟨fun _ h _ hchart => caseCharts_fit h hchart,
    fun _ h _ hchart => comparisonCharts_fit h hchart⟩

/-- A table with a baseline that has no time in seconds, and with a row that is
so much faster that its speedup is infinite. -/
def unevenTable : Table where
  name := "uneven"
  rows := [⟨1, 1, .nan, .ofNat (Nat.pow 10 300)⟩,
    ⟨1, 2, .ofNat 1, .ofQuotient false 1 (Nat.pow 10 300)⟩]

theorem charts_fit_uneven :
    (∃ charts, caseCharts unevenTable ⟨"out"⟩ = .ok charts ∧ charts.length = 3 ∧
      ∀ chart ∈ charts, chart.Fits) ∧
    ∃ charts, comparisonCharts unevenTable unevenTable .usual ⟨"out"⟩ =
      .ok charts ∧
      charts.length = 1 ∧ ∀ chart ∈ charts, chart.Fits ∧
      ∀ p ∈ chart.points, zero ≤ p.y := by
  obtain ⟨hcase, hcomparison⟩ :=
    charts_fit unevenTable unevenTable unevenTable .usual ⟨"out"⟩
  have hcases :
      (caseCharts unevenTable ⟨"out"⟩).toOption.map (·.length) = some 3 := by
    decide +kernel
  have hcomparisons :
      (comparisonCharts unevenTable unevenTable .usual ⟨"out"⟩).toOption.map
        (·.length) = some 1 := by decide +kernel
  obtain ⟨charts, hcharts, hlength⟩ := Option.map_eq_some_iff.1 hcases
  obtain ⟨others, hothers, hone⟩ := Option.map_eq_some_iff.1 hcomparisons
  have hok := toOption_eq_some_iff.1 hcharts
  have hothersOk := toOption_eq_some_iff.1 hothers
  exact ⟨⟨charts, hok, hlength, fun chart hchart =>
    (hcase charts hok chart hchart).1⟩, others, hothersOk, hone,
    hcomparison others hothersOk⟩

/-- Not every value on a chart is finite: neither the missing time nor the
infinite speedup is. -/
theorem caseCharts_not_isFinite :
    ∃ charts, caseCharts unevenTable ⟨"out"⟩ = .ok charts ∧
      (∃ chart ∈ charts, ∃ p ∈ chart.points, p.y = .nan) ∧
      ∃ chart ∈ charts, ∃ p ∈ chart.points, p.y = infinity := by
  have hnan : (caseCharts unevenTable ⟨"out"⟩).toOption.any (fun charts =>
      charts.any fun chart => chart.points.any (·.y = .nan)) = true := by
    decide +kernel
  have hinfinity : (caseCharts unevenTable ⟨"out"⟩).toOption.any (fun charts =>
      charts.any fun chart => chart.points.any (·.y = infinity)) = true := by
    decide +kernel
  cases hcharts : caseCharts unevenTable ⟨"out"⟩ with
  | error e => rw [hcharts] at hnan; cases hnan
  | ok charts =>
      rw [hcharts] at hnan hinfinity
      refine ⟨charts, rfl, ?_, ?_⟩
      · simpa [Except.toOption] using hnan
      · simpa [Except.toOption] using hinfinity

end BenchReport
