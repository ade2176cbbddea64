import BenchReport.Proofs.Chart.Case
import BenchReport.Proofs.Double.Count

/-!
# Charts of ascending tables

In a table whose rows ascend by streams and then by threads, no two rows have
the same counts. So there is at most one baseline, the numbers of streams ascend
as they first appear, and the points of every chart go from left to right. What
is left to decide is whether there is a baseline and whether all times can be
divided by.
-/

namespace BenchReport

/-- Whether a row comes before another one by its counts. -/
def Timing.Before (a b : Timing) : Prop :=
  a.xstreams < b.xstreams ∨ a.xstreams = b.xstreams ∧ a.threads < b.threads

/-- Whether the rows of a table ascend by their counts. -/
def Table.Ascending (table : Table) : Prop :=
  table.rows.Pairwise Timing.Before

namespace Table

variable {table : Table}

/-! ## Numbers of streams -/

theorem pairwise_eraseDups {l : List UInt32} (h : l.Pairwise (· ≤ ·)) :
    l.eraseDups.Pairwise (· < ·) := by
  have hle := h.sublist (eraseDups_sublist l)
  refine hle.imp₂ (fun a b hab hne => ?_) (nodup_eraseDups l)
  exact UInt32.lt_of_le_of_ne hab hne

theorem Ascending.pairwise_xstreams (h : table.Ascending) :
    table.xstreams.Pairwise (· < ·) := by
  refine pairwise_eraseDups (List.pairwise_map.2 (h.imp fun hbefore => ?_))
  rcases hbefore with hlt | ⟨heq, -⟩
  · exact UInt32.le_of_lt hlt
  · exact heq ▸ UInt32.le_refl _

/-! ## Points -/

theorem map_x_points {rows : List Timing} {speedups : List Double}
    (hlength : rows.length = speedups.length) (n : UInt32) (metric : Metric) :
    (metric.points (rows.zip speedups) n).map (·.x) =
      (rows.filter (·.xstreams = n)).map fun t => .ofNat t.threads.toNat := by
  have hrows : (rows.zip speedups).map Prod.fst = rows :=
    List.map_fst_zip (Nat.le_of_eq hlength)
  conv_rhs => rw [← hrows]
  rw [Metric.points, List.map_map, List.filter_map, List.map_map]
  rfl

theorem Ascending.pairwise_points (h : table.Ascending) (n : UInt32) :
    ((table.rows.filter (·.xstreams = n)).map fun t =>
      Double.ofNat t.threads.toNat).Pairwise (· < ·) := by
  rw [List.pairwise_map]
  refine (h.sublist List.filter_sublist).imp_of_mem fun ha hb hbefore => ?_
  simp only [List.mem_filter, decide_eq_true_eq] at ha hb
  rcases hbefore with hlt | ⟨-, hlt⟩
  · rw [ha.2, hb.2] at hlt
    exact absurd hlt (UInt32.lt_irrefl n)
  · exact Double.ofNat_lt_ofNat hlt
      (Nat.lt_of_lt_of_le (UInt32.toNat_lt _) (by decide))

/-! ## Baselines -/

theorem Ascending.exists_baseline (h : table.Ascending)
    (hbaseline : ∃ t ∈ table.rows, t.isBaseline = true) :
    ∃ b, table.baselines = [b] := by
  have hbaselines := h.sublist (List.filter_sublist (p := Timing.isBaseline))
  have hmem : ∀ t ∈ table.baselines, t.xstreams = 1 ∧ t.threads = 1 :=
    fun t ht => Timing.isBaseline_iff.1 (List.mem_filter.1 ht).2
  match hfound : table.baselines with
  | [] =>
      obtain ⟨t, ht, hbase⟩ := hbaseline
      exact absurd hbase (List.filter_eq_nil_iff.1 hfound t ht)
  | [b] => exact ⟨b, rfl⟩
  | first :: second :: rest =>
      rw [show table.rows.filter Timing.isBaseline = _ from hfound]
        at hbaselines
      rw [hfound] at hmem
      have hbefore :=
        List.rel_of_pairwise_cons hbaselines (List.mem_cons_self ..)
      have hfirst := hmem first (by simp)
      have hsecond := hmem second (by simp)
      rw [Timing.Before, hfirst.1, hfirst.2, hsecond.1, hsecond.2] at hbefore
      exact absurd hbefore (by decide)

/-! ## Charts -/

theorem caseCharts_of_not_isBaseline
    (hnone : ∀ t ∈ table.rows, ¬ t.isBaseline = true) (output : Path) :
    caseCharts table output = .error (.baselineNotFound table.name) :=
  caseCharts_of_error (baselineTime_of_nil (List.filter_eq_nil_iff.2 hnone))

theorem Ascending.caseCharts_of_not_isValid (h : table.Ascending)
    (hbaseline : ∃ t ∈ table.rows, t.isBaseline = true)
    (hinvalid : ∃ t ∈ table.rows, ¬ t.isValid = true) (output : Path) :
    ∃ t, caseCharts table output = .error (.invalidTiming table.name t) := by
  obtain ⟨b, hb⟩ := h.exists_baseline hbaseline
  by_cases hvalid : b.isValid = true
  · obtain ⟨t, herror⟩ := speedups_of_not_isValid hinvalid b.nanos
    refine ⟨t, ?_⟩
    rw [caseCharts_of_single hb hvalid, herror]
    rfl
  · refine ⟨b, caseCharts_of_error ?_⟩
    rw [baselineTime_of_single hb, if_neg hvalid]

theorem Ascending.caseCharts_of_isValid (h : table.Ascending)
    (hbaseline : ∃ t ∈ table.rows, t.isBaseline = true)
    (hvalid : ∀ t ∈ table.rows, t.isValid = true) (output : Path) :
    ∃ speedups, table.rows.length = speedups.length ∧
      caseCharts table output =
        .ok (table.xstreams.flatMap fun n => Metric.all.map
          (Metric.chart table.name (output.join table.name)
            (table.rows.zip speedups) n)) := by
  obtain ⟨b, hb⟩ := h.exists_baseline hbaseline
  exact ⟨table.rows.map (b.nanos / ·.nanos), by rw [List.length_map],
    Table.caseCharts_of_isValid hb hvalid⟩

end Table

end BenchReport
