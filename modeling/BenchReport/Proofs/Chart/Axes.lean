import BenchReport.Proofs.Chart.Range
import BenchReport.Proofs.Double.Equality

/-!
# What the axes of a chart show and depend on

Both axes of a chart are ranges around the coordinates of its points, so what
holds of ranges around values is said here of charts.

Coordinates of at most 1e300 leave room for a margin: the ends are finite, the
axis is not empty, and all points lie on it (`Chart.frames_of_moderate`). A
margin that is rounded to zero, or that a large coordinate absorbs, does no
harm, for no end is ever inside the values.

A range comes from the least and the greatest value. Lists with the same numbers
have equal ones, which may be zeros of two signs. The margin does not see the
sign of a zero, and the ends have what is left of it
(`AxisRange.around_equals`). So neither the order of the points nor a coordinate
without a number decides where an axis ends (`Chart.ranges_of_perm`).
-/

namespace BenchReport

open Double

namespace AxisRange

variable {values others : List Double} {low high low' high' : Double}

/-! ## Moderate values -/

/-- Whether a range has finite ends, is not empty, and has all values in it. -/
structure Frames (range : AxisRange) (values : List Double) : Prop where
  isFinite_first : range.first.isFinite = true
  isFinite_last : range.last.isFinite = true
  first_lt_last : range.first < range.last
  covers : ∀ v ∈ values, range.first ≤ v ∧ v ≤ range.last

theorem moderate_le_reach :
    Double.ofNat (Nat.pow 10 300) ≤ .ofNat (Nat.pow 2 1022) := by
  decide +kernel

theorem around_frames (hne : values ≠ [])
    (hmoderate : ∀ v ∈ values, v.abs ≤ .ofNat (Nat.pow 10 300)) :
    (around values).Frames values := by
  obtain ⟨v, hv⟩ := List.exists_mem_of_ne_nil _ hne
  have hfinite : ∀ v ∈ values, v.isFinite = true := fun v hv =>
    isFinite_of_abs_le (by decide +kernel) (hmoderate v hv)
  have hnumber : ∀ v ∈ values, v ≠ .nan :=
    fun v hv => ne_nan_of_isFinite (hfinite v hv)
  have hreach : ∀ v ∈ values, v ≠ .nan → v.abs ≤ .ofNat (Nat.pow 2 1022) :=
    fun v hv _ => Double.le_trans (hmoderate v hv) moderate_le_reach
  have hencloses := around_encloses hv (hnumber v hv) fun v hv _ => hfinite v hv
  obtain ⟨hfirst, hlast⟩ := around_isFinite hv (hnumber v hv) hreach
  exact ⟨hfirst, hlast, hencloses.first_lt_last,
    fun v hv => hencloses.covers v hv (hnumber v hv)⟩

/-! ## Ranges around the same numbers -/

/-- Whether two ranges have the same numbers for their ends. -/
structure Equals (range other : AxisRange) : Prop where
  first : range.first.Equals other.first
  last : range.last.Equals other.last

theorem least_equals (h : ∀ v, v ≠ .nan → (v ∈ values ↔ v ∈ others)) :
    (least values).Equals (least others) :=
  picks_min.foldl_same Double.le_refl Double.le_trans nofun h

theorem greatest_equals (h : ∀ v, v ≠ .nan → (v ∈ values ↔ v ∈ others)) :
    (greatest values).Equals (greatest others) := by
  have hsame :
      greatest others ≤ greatest values ∧ greatest values ≤ greatest others :=
    picks_max.foldl_same Double.le_refl (fun hab hbc => Double.le_trans hbc hab)
      nofun h
  exact hsame.symm

theorem least_le_greatest (h : (least values).isFinite = true) :
    least values ≤ greatest values := by
  obtain ⟨hnumber, -, -, heq | hmem⟩ := least_spec values
  · rw [heq] at h
    cases h
  · exact le_greatest hmem hnumber

/-- The margin of two numbers goes by their values, and the sign of a zero is no
part of them. -/
theorem margin_congr (hlow : low.Equals low') (hhigh : high.Equals high')
    (hlowFinite : low.isFinite = true) (hhighFinite : high.isFinite = true)
    (hle : low ≤ high) :
    margin low high = margin low' high' := by
  have hlowValue := (equals_iff.1 hlow).2.2
  have hhighValue := (equals_iff.1 hhigh).2.2
  have hlowFinite' := hlow.isFinite_eq ▸ hlowFinite
  have hhighFinite' := hhigh.isFinite_eq ▸ hhighFinite
  rcases Int.lt_or_eq_of_le (Double.le_iff.1 hle).2.2 with hlt | heq
  · rw [margin_of_value_lt hlowFinite hhighFinite hlt,
      margin_of_value_lt hlowFinite' hhighFinite' (by omega),
      hlowValue, hhighValue]
  · rw [margin_of_value_eq hlowFinite hhighFinite heq,
      margin_of_value_eq hlowFinite' hhighFinite' (by omega), hlow.abs_eq]

theorem around_of_ends (hlow : (least values).isFinite = true)
    (hhigh : (greatest values).isFinite = true) :
    around values =
      ⟨least values - margin (least values) (greatest values),
        greatest values + margin (least values) (greatest values)⟩ :=
  if_pos (by rw [hlow, hhigh]; rfl)

/-- A range depends on nothing but which numbers are among the values. -/
theorem around_equals (h : ∀ v, v ≠ .nan → (v ∈ values ↔ v ∈ others)) :
    (around values).Equals (around others) := by
  have hleast := least_equals h
  have hgreatest := greatest_equals h
  by_cases hfinite :
    (least values).isFinite = true ∧ (greatest values).isFinite = true
  · obtain ⟨hlow, hhigh⟩ := hfinite
    have hle := least_le_greatest hlow
    obtain ⟨k, hk⟩ := exists_margin hlow hhigh hle
    rw [around_of_ends hlow hhigh,
      around_of_ends (hleast.isFinite_eq ▸ hlow)
        (hgreatest.isFinite_eq ▸ hhigh),
      ← margin_congr hleast hgreatest hlow hhigh hle, hk]
    exact ⟨hleast.add_right hlow nofun, hgreatest.add_right hhigh nofun⟩
  · have hother := hfinite
    rw [hleast.isFinite_eq, hgreatest.isFinite_eq] at hother
    rw [around_of_not_isFinite hfinite, around_of_not_isFinite hother]
    exact ⟨.refl nofun, .refl nofun⟩

theorem around_perm (h : values.Perm others) :
    (around values).Equals (around others) :=
  around_equals fun _ _ => h.mem_iff

theorem around_filter (values : List Double) :
    around (values.filter (· ≠ .nan)) = around values := by
  have hleast : least (values.filter (· ≠ .nan)) = least values :=
    picks_min.foldl_filter values _
  have hgreatest : greatest (values.filter (· ≠ .nan)) = greatest values :=
    picks_max.foldl_filter values _
  rw [around, hleast, hgreatest]
  rfl

theorem around_of_no_range
    (h : (∀ v ∈ values, v = .nan) ∨ ∃ v ∈ values, v.IsInfinite) :
    around values = unit := by
  rcases h with hnan | ⟨v, hv, hinfinite⟩
  · exact around_of_nan hnan
  · exact around_of_isInfinite hv hinfinite

end AxisRange

/-! ## Charts -/

namespace Chart

variable {chart : Chart}

/-- A chart with points whose coordinates are at most 1e300 in size has two
finite axes that are not empty, and all its points lie on them. -/
theorem frames_of_moderate (hpoints : chart.points ≠ [])
    (hmoderate : ∀ p ∈ chart.points, p.x.abs ≤ .ofNat (Nat.pow 10 300) ∧
      p.y.abs ≤ .ofNat (Nat.pow 10 300)) :
    chart.xRange.Frames (chart.points.map (·.x)) ∧
      chart.yRange.Frames (chart.points.map (·.y)) := by
  have hne : ∀ coordinate : Point → Double, chart.points.map coordinate ≠ [] :=
    fun _ => mt List.map_eq_nil_iff.1 hpoints
  constructor
  · exact AxisRange.around_frames (hne _)
      (List.forall_mem_map.2 fun p hp => (hmoderate p hp).1)
  · exact AxisRange.around_frames (hne _)
      (List.forall_mem_map.2 fun p hp => (hmoderate p hp).2)

/-- Points as far apart as moderate ones can be, at heights so close that the
margin is rounded to zero. -/
def steepChart : Chart :=
  .overThreads ⟨"steep.png"⟩ "Steep" "Time"
    [⟨-.ofNat (Nat.pow 10 300), .zero⟩,
      ⟨.ofNat (Nat.pow 10 300), .ofQuotient false 1 (Nat.pow 2 1074)⟩]

theorem frames_of_moderate_steep :
    steepChart.points ≠ [] ∧
    (∀ p ∈ steepChart.points, p.x.abs ≤ .ofNat (Nat.pow 10 300) ∧
      p.y.abs ≤ .ofNat (Nat.pow 10 300)) ∧
    steepChart.yRange = ⟨.zero, .ofQuotient false 1 (Nat.pow 2 1074)⟩ ∧
    steepChart.xRange.Frames (steepChart.points.map (·.x)) ∧
    steepChart.yRange.Frames (steepChart.points.map (·.y)) := by
  have hpoints : steepChart.points ≠ [] := List.cons_ne_nil _ _
  have hmoderate : ∀ p ∈ steepChart.points, p.x.abs ≤ .ofNat (Nat.pow 10 300) ∧
      p.y.abs ≤ .ofNat (Nat.pow 10 300) := by decide +kernel
  exact ⟨hpoints, hmoderate, by decide +kernel,
    frames_of_moderate hpoints hmoderate⟩

/-- Where the axes of a chart end depends on the numbers among its coordinates
alone: with its points in another order the ends are the same numbers, and
without the coordinates that are no numbers they are the same doubles. An axis
goes from zero to one if none of its coordinates is a number, or one
is infinite. -/
theorem ranges_of_perm (chart : Chart) :
    (∀ other : Chart, other.points.Perm chart.points →
      other.xRange.Equals chart.xRange ∧ other.yRange.Equals chart.yRange) ∧
    AxisRange.around ((chart.points.map (·.x)).filter (· ≠ .nan)) =
      chart.xRange ∧
    AxisRange.around ((chart.points.map (·.y)).filter (· ≠ .nan)) =
      chart.yRange ∧
    ((∀ p ∈ chart.points, p.x = .nan) ∨ (∃ p ∈ chart.points, p.x.IsInfinite) →
      chart.xRange = ⟨.zero, .ofNat 1⟩) ∧
    ((∀ p ∈ chart.points, p.y = .nan) ∨ (∃ p ∈ chart.points, p.y.IsInfinite) →
      chart.yRange = ⟨.zero, .ofNat 1⟩) := by
  have hfallback : ∀ coordinate : Point → Double,
      (∀ p ∈ chart.points, coordinate p = .nan) ∨
        (∃ p ∈ chart.points, (coordinate p).IsInfinite) →
      AxisRange.around (chart.points.map coordinate) = .unit := by
    intro coordinate h
    refine AxisRange.around_of_no_range (h.imp List.forall_mem_map.2 ?_)
    intro ⟨p, hp, hinfinite⟩
    exact ⟨_, List.mem_map_of_mem hp, hinfinite⟩
  refine ⟨?_, AxisRange.around_filter _, AxisRange.around_filter _, hfallback _,
    hfallback _⟩
  intro other hperm
  exact ⟨AxisRange.around_perm (hperm.map _),
    AxisRange.around_perm (hperm.map _)⟩

/-- Points at zeros of both signs and at no number, all without a height. -/
def zerosChart : Chart :=
  .overThreads ⟨"zeros.png"⟩ "Zeros" "Time"
    [⟨.zero, .nan⟩, ⟨.nan, .nan⟩, ⟨.negativeZero, .nan⟩,
      ⟨.ofQuotient false 1 (Nat.pow 2 1074), .nan⟩]

/-- The same points from the last to the first. -/
def zerosReversed : Chart :=
  { zerosChart with points := zerosChart.points.reverse }

/-- Points that go on without end. -/
def endlessChart : Chart :=
  .overThreads ⟨"endless.png"⟩ "Endless" "Time"
    [⟨.ofNat 1, .zero⟩, ⟨.infinity, .zero⟩]

/-- The reversed points move the first end of the axis from one zero to
the other. -/
theorem ranges_of_perm_zeros :
    zerosReversed.points.Perm zerosChart.points ∧
    zerosChart.xRange.first = .zero ∧ zerosReversed.xRange.first =
      .negativeZero ∧
    zerosReversed.xRange.Equals zerosChart.xRange ∧
    zerosReversed.yRange.Equals zerosChart.yRange ∧
    (∀ p ∈ zerosChart.points, p.y = .nan) ∧
    zerosChart.yRange = ⟨.zero, .ofNat 1⟩ ∧
    (∃ p ∈ endlessChart.points, p.x.IsInfinite) ∧
    endlessChart.xRange = ⟨.zero, .ofNat 1⟩ := by
  have hperm : zerosReversed.points.Perm zerosChart.points :=
    List.reverse_perm _
  have hnan : ∀ p ∈ zerosChart.points, p.y = .nan := by decide +kernel
  have hinfinite : ∃ p ∈ endlessChart.points, p.x.IsInfinite :=
    ⟨⟨.infinity, .zero⟩, by simp [endlessChart, overThreads], .inl rfl⟩
  obtain ⟨hends, _, _, _, hheights⟩ := ranges_of_perm zerosChart
  obtain ⟨_, _, _, hthreads, _⟩ := ranges_of_perm endlessChart
  obtain ⟨hx, hy⟩ := hends zerosReversed hperm
  exact ⟨hperm, by decide +kernel, by decide +kernel, hx, hy, hnan,
    hheights (.inl hnan), hinfinite, hthreads (.inr hinfinite)⟩

end Chart

end BenchReport
