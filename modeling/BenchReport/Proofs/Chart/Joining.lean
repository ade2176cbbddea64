import BenchReport.Chart.Set
import BenchReport.Proofs.Table.Pairing

/-!
# Comparisons depend on the joined rows

The rows of two tables are found by their counts and never by their places, so
the charts of a comparison should not know in which order the tables list them,
nor what else the second table holds. Two orders come in all the same: the
numbers of streams are those of the first table as they first appear, and the
points of a chart follow its rows.

The ratios of a number of streams are therefore said without any search
(`Table.ratios_eq_ok_iff`): rows that go together, and for each row of the first
table the one pair that `Table.Joins` allows. This mentions the second table
only up to its order, and a pair for each row is the same demand whichever row
is first. What is left is to take the two orders along, of the streams and of
the points (`Chart.Reorders`).
-/

namespace BenchReport

namespace Table

variable {first second other : Table} {n : UInt32} {t : Timing}
  {rows partners : List Timing} {pairs : List (UInt32 × Double)}

/-! ## Other orders -/

theorem GoTogether.perm {rows' partners' : List Timing}
    (h : GoTogether rows partners) (hrows : rows'.Perm rows)
    (hpartners : partners'.Perm partners) :
    GoTogether rows' partners' where
  nodup_rows := (hrows.map _).nodup_iff.2 h.nodup_rows
  nodup_partners := (hpartners.map _).nodup_iff.2 h.nodup_partners
  same_threads n := by
    rw [(hrows.map _).mem_iff, (hpartners.map _).mem_iff]
    exact h.same_threads n

theorem Joins.perm {partners' : List Timing} {pair : UInt32 × Double}
    (h : Joins partners t pair) (hpartners : partners'.Perm partners) :
    Joins partners' t pair := by
  obtain ⟨p, hp, hpair⟩ := h
  have hsame := hpartners.filter (·.threads = t.threads)
  rw [hp, List.perm_singleton] at hsame
  exact ⟨p, hsame, hpair⟩

theorem ratios_of_perm_partners (h : first.ratios second n = .ok pairs)
    (hpartners : (other.partition n).Perm (second.partition n)) :
    first.ratios other n = .ok pairs := by
  obtain ⟨htogether, hpairs⟩ := ratios_eq_ok_iff.1 h
  refine ratios_eq_ok_iff.2 ⟨htogether.perm (.refl _) hpartners,
    hpairs.imp fun t pair hpair => ?_⟩
  exact hpair.perm hpartners

theorem ratios_of_perm_rows (h : first.ratios second n = .ok pairs)
    (hrows : (other.partition n).Perm (first.partition n)) :
    ∃ later, other.ratios second n = .ok later ∧ later.Perm pairs := by
  obtain ⟨htogether, hpairs⟩ := ratios_eq_ok_iff.1 h
  obtain ⟨later, hlater, hperm⟩ := List.perm_comp_forall₂ hrows hpairs
  exact ⟨later, ratios_eq_ok_iff.2 ⟨htogether.perm hrows (.refl _), hlater⟩,
    hperm⟩

theorem xstreams_perm (h : first.rows.Perm second.rows) :
    first.xstreams.Perm second.xstreams := by
  refine (List.perm_ext_iff_of_nodup first.nodup_xstreams
    second.nodup_xstreams).2 fun n => ?_
  simp only [mem_xstreams, h.mem_iff]

/-- Rows with other numbers of streams have no say in a partition. -/
theorem partition_perm_of_others {kept removed added : List Timing}
    (hrows : first.rows.Perm (kept ++ removed))
    (hother : other.rows.Perm (kept ++ added))
    (hapart : ∀ t ∈ removed ++ added, t.xstreams ≠ n) :
    (other.partition n).Perm (first.partition n) := by
  have hnone (rest : List Timing) (hrest : ∀ t ∈ rest, t ∈ removed ++ added) :
      (kept ++ rest).filter (·.xstreams = n) =
        kept.filter (·.xstreams = n) := by
    have hnil : rest.filter (·.xstreams = n) = [] := by
      rw [List.filter_eq_nil_iff]
      intro t ht
      simpa using hapart t (hrest t ht)
    rw [List.filter_append, hnil, List.append_nil]
  have hfirst := hrows.filter (·.xstreams = n)
  have hlater := hother.filter (·.xstreams = n)
  rw [hnone removed fun t ht => List.mem_append_left _ ht] at hfirst
  rw [hnone added fun t ht => List.mem_append_right _ ht] at hlater
  exact hlater.trans hfirst.symm

end Table

/-! ## Charts -/

/-- Whether a chart is another one with its points in some order. -/
structure Chart.Reorders (chart other : Chart) : Prop where
  points : chart.points.Perm other.points
  same : { chart with points := other.points } = other

variable {tree simple other : Table} {c : Comparison} {output : Path}
  {n : UInt32} {chart : Chart}

theorem Comparison.chart_eq_ok_iff :
    c.chart tree simple output n = .ok chart ↔
      ∃ ratios, tree.ratios simple n = .ok ratios ∧
      chart = .overThreads ((output.join c.directory).join (c.fileName n))
      (c.title n)
        Metric.speedup.label
        (ratios.map fun (threads, ratio) => ⟨.ofNat threads.toNat, ratio⟩) := by
  rw [Comparison.chart, bind_eq_ok_iff]
  refine exists_congr fun ratios => and_congr_right fun _ => ?_
  constructor
  · exact fun h => (Except.ok.inj h).symm
  · exact fun h => congrArg Except.ok h.symm

theorem Comparison.chart_of_perm_rows
    (h : c.chart tree simple output n = .ok chart)
    (hrows : other.rows.Perm tree.rows) :
    ∃ later, c.chart other simple output n = .ok later ∧
      later.Reorders chart := by
  obtain ⟨ratios, hratios, rfl⟩ := chart_eq_ok_iff.1 h
  obtain ⟨pairs, hpairs, hperm⟩ :=
    Table.ratios_of_perm_rows hratios (hrows.filter _)
  exact ⟨_, chart_eq_ok_iff.2 ⟨pairs, hpairs, rfl⟩, hperm.map _, rfl⟩

theorem exists_reorders {streams : List UInt32} {charts : List Chart}
    (h : List.Forall₂ (fun n chart => c.chart tree simple output n = .ok chart)
      streams charts)
    (hrows : other.rows.Perm tree.rows) :
    ∃ later, streams.mapM (c.chart other simple output) = .ok later ∧
      List.Forall₂ Chart.Reorders later charts := by
  induction h with
  | nil => exact ⟨[], rfl, .nil⟩
  | cons hchart _ ih =>
      obtain ⟨first, hfirst, hreorders⟩ :=
        Comparison.chart_of_perm_rows hchart hrows
      obtain ⟨rest, hrest, hothers⟩ := ih
      refine ⟨first :: rest, ?_, .cons hreorders hothers⟩
      rw [mapM_cons_of_ok hfirst, hrest]
      rfl

/-- The charts of a comparison depend on nothing but the joined rows. The second
table may list its rows in any order, and those with streams that the first one
does not have may come and go: the charts are the same. Where the first table
lists its rows in another order, the charts come in another order, and their
points do, and nothing else changes. -/
theorem comparisonCharts_of_perm {charts : List Chart}
    (h : comparisonCharts tree simple c output = .ok charts) :
    (∀ (other : Table) (kept removed added : List Timing),
      simple.rows.Perm (kept ++ removed) → other.rows.Perm (kept ++ added) →
      (∀ t ∈ removed ++ added, ∀ u ∈ tree.rows, u.xstreams ≠ t.xstreams) →
      comparisonCharts tree other c output = .ok charts) ∧
    ∀ other : Table, other.rows.Perm tree.rows →
      ∃ later reordered, comparisonCharts other simple c output = .ok later ∧
        List.Forall₂ Chart.Reorders later reordered ∧
        reordered.Perm charts := by
  rw [comparisonCharts, mapM_eq_ok_iff] at h
  constructor
  · intro other kept removed added hsimple hother hapart
    have hstreams :
        ∀ n ∈ tree.xstreams, ∀ t ∈ removed ++ added, t.xstreams ≠ n := by
      intro n hn t ht hsame
      obtain ⟨u, hu, hstreams⟩ := Table.mem_xstreams.1 hn
      exact hapart t ht u hu (hstreams.trans hsame.symm)
    rw [comparisonCharts, mapM_eq_ok_iff]
    refine (List.forall₂_and_left _ _).2 ⟨hstreams, h⟩ |>.imp ?_
    intro n chart hchart
    obtain ⟨hnot, hchart⟩ := hchart
    obtain ⟨ratios, hratios, hchart⟩ := Comparison.chart_eq_ok_iff.1 hchart
    exact Comparison.chart_eq_ok_iff.2
      ⟨ratios, Table.ratios_of_perm_partners hratios
        (Table.partition_perm_of_others hsimple hother hnot), hchart⟩
  · intro other hrows
    obtain ⟨reordered, hreordered, hperm⟩ :=
      List.perm_comp_forall₂ (Table.xstreams_perm hrows) h
    obtain ⟨later, hlater, hsame⟩ := exists_reorders hreordered hrows
    exact ⟨later, reordered, hlater, hsame, hperm⟩

/-- The partners of three rows, and a row of streams that the three do
not have. -/
def partnersOfThree : Table where
  name := "simple"
  rows := [⟨3, 1, .zero, .nan⟩, ⟨2, 4, .zero, .ofNat 100⟩, ⟨1, 1, .zero, .zero⟩,
    ⟨2, 1, .zero, .ofNat 50⟩]

/-- The same partners in another order, with another row that has none. -/
def partnersReordered : Table where
  name := "simple"
  rows := [⟨2, 1, .zero, .ofNat 50⟩, ⟨2, 4, .zero, .ofNat 100⟩,
    ⟨1, 1, .zero, .zero⟩, ⟨4, 1, .zero, .zero⟩]

/-- The three rows from the last to the first. -/
def threeReversed : Table where
  name := "tree"
  rows := Table.treeOfThree.rows.reverse

/-- The two streams change places with the rows, and so do the two points. -/
theorem comparisonCharts_of_perm_three :
    ∃ charts, comparisonCharts Table.treeOfThree partnersOfThree .usual
      ⟨"out"⟩ = .ok charts ∧
      charts.length = 2 ∧
      comparisonCharts Table.treeOfThree partnersReordered .usual ⟨"out"⟩ =
        .ok charts ∧
      ∃ later reordered,
        comparisonCharts threeReversed partnersOfThree .usual ⟨"out"⟩ =
          .ok later ∧
        List.Forall₂ Chart.Reorders later reordered ∧
        reordered.Perm charts := by
  have hlength :
      (comparisonCharts Table.treeOfThree partnersOfThree .usual
        ⟨"out"⟩).toOption.map (·.length) = some 2 := by decide +kernel
  obtain ⟨charts, hcharts, hlength⟩ := Option.map_eq_some_iff.1 hlength
  have hok := toOption_eq_some_iff.1 hcharts
  obtain ⟨hpartners, hrows⟩ := comparisonCharts_of_perm hok
  refine ⟨charts, hok, hlength, ?_, hrows threeReversed (List.reverse_perm _)⟩
  exact hpartners partnersReordered
    [⟨2, 1, .zero, .ofNat 50⟩, ⟨2, 4, .zero, .ofNat 100⟩, ⟨1, 1, .zero, .zero⟩]
    [⟨3, 1, .zero, .nan⟩] [⟨4, 1, .zero, .zero⟩] (by decide +kernel)
      (by decide +kernel)
    (by decide)

end BenchReport
