import BenchReport.Chart.Basic
import BenchReport.Proofs.Double.Extremes

/-!
# What an axis covers

The least and the greatest of some values are picked from them, so where no
value is infinite and one is a number, both ends of a range come from values.
The margin that is taken from one and added to the other is not negative, and a
rounded difference or sum passes neither value: every number is covered
(`around_encloses`).

That the range is not empty needs more where all numbers are equal. The margin
is then a twentieth of the number, or one, and both are at least as wide as the
step to the next magnitude (`units_succ_le`), so one end is moved.
-/

namespace BenchReport

namespace AxisRange

open Double

variable {values : List Double} {v low high : Double}

/-! ## The least and the greatest value -/

theorem least_spec (values : List Double) :
    least values ≠ .nan ∧ least values ≤ infinity ∧
      (∀ v ∈ values, v ≠ .nan → least values ≤ v) ∧
      (least values = infinity ∨ least values ∈ values) :=
  picks_min.foldl Double.le_refl Double.le_trans values nofun

theorem greatest_spec (values : List Double) :
    greatest values ≠ .nan ∧ negativeInfinity ≤ greatest values ∧
      (∀ v ∈ values, v ≠ .nan → v ≤ greatest values) ∧
      (greatest values = negativeInfinity ∨ greatest values ∈ values) :=
  picks_max.foldl Double.le_refl (fun hab hbc => Double.le_trans hbc hab)
    values nofun

theorem least_le (hv : v ∈ values) (hnumber : v ≠ .nan) : least values ≤ v :=
  (least_spec values).2.2.1 v hv hnumber

theorem le_greatest (hv : v ∈ values) (hnumber : v ≠ .nan) :
    v ≤ greatest values :=
  (greatest_spec values).2.2.1 v hv hnumber

theorem least_mem (hv : v ∈ values) (hnumber : v ≠ .nan) :
    least values ∈ values := by
  rcases (least_spec values).2.2.2 with heq | hmem
  · have hle := least_le hv hnumber
    rw [heq] at hle ⊢
    exact eq_infinity_of_le hle ▸ hv
  · exact hmem

theorem greatest_mem (hv : v ∈ values) (hnumber : v ≠ .nan) :
    greatest values ∈ values := by
  rcases (greatest_spec values).2.2.2 with heq | hmem
  · have hle := le_greatest hv hnumber
    rw [heq] at hle ⊢
    exact eq_negativeInfinity_of_le hle ▸ hv
  · exact hmem

/-! ## Where the values give no range -/

/-- From zero to one. -/
def unit : AxisRange := ⟨.zero, .ofNat 1⟩

theorem around_of_not_isFinite
    (h : ¬ ((least values).isFinite = true ∧
      (greatest values).isFinite = true)) :
    around values = unit := by
  rw [around, if_neg (by rwa [Bool.and_eq_true])]
  rfl

theorem around_of_nan (h : ∀ v ∈ values, v = .nan) : around values = unit := by
  refine around_of_not_isFinite fun hfinite => ?_
  obtain ⟨hne, -, -, heq | hmem⟩ := least_spec values
  · rw [heq] at hfinite
    exact absurd hfinite.1 (by decide)
  · exact hne (h _ hmem)

theorem around_of_isInfinite (hv : v ∈ values) (h : v.IsInfinite) :
    around values = unit := by
  refine around_of_not_isFinite fun hfinite => ?_
  rcases h with rfl | rfl
  · rw [eq_infinity_of_le (le_greatest hv nofun)] at hfinite
    exact absurd hfinite.2 (by decide)
  · rw [eq_negativeInfinity_of_le (least_le hv nofun)] at hfinite
    exact absurd hfinite.1 (by decide)

/-! ## Twentieths -/

/-- The magnitude of the factor that margins are taken with. -/
def factor : Magnitude := .nearest (1 * unitsPerOne) 20

theorem isFinite_factor : factor.isFinite = true := by decide +kernel

theorem units_factor :
    16 * factor.units ≤ unitsPerOne ∧ unitsPerOne ≤ 32 * factor.units := by
  decide +kernel

/-- A twentieth of a magnitude, rounded. -/
def twentieth (m : Magnitude) : Magnitude :=
  .nearest (m.units * factor.units) unitsPerOne

theorem mul_marginFactor {m : Magnitude} (hm : m.isFinite = true) :
    signed false m * marginFactor = .signed false (twentieth m) :=
  mul_positive hm isFinite_factor

theorem units_twentieth_le {m n : Magnitude} (h : m.units ≤ 16 * n.units) :
    (twentieth m).units ≤ n.units := by
  refine Magnitude.units_nearest_le unitsPerOne_pos ?_
  calc m.units * factor.units ≤ 16 * n.units * factor.units :=
    Nat.mul_le_mul_right _ h
    _ = n.units * (16 * factor.units) := by ring
    _ ≤ n.units * unitsPerOne := Nat.mul_le_mul_left _ units_factor.1

theorem isFinite_twentieth {m : Magnitude} (hm : m.isFinite = true) :
    (twentieth m).isFinite = true :=
  Magnitude.isFinite_of_units_le hm (units_twentieth_le (by omega))

/-- From a finite magnitude to the next one it is at most one unit of the lowest
binade, or a twentieth. -/
theorem units_succ_le {m : Magnitude} (hm : m.isFinite = true) :
    Magnitude.unitsAt (m.rank + 1) ≤ m.units + max 1 (twentieth m).units := by
  obtain ⟨d, s, hrank, hlow, hhigh⟩ := Magnitude.exists_binade m.rank
  have hunits : m.units = s * 2 ^ d := by
    rw [Magnitude.units, hrank, Magnitude.unitsAt_binade hlow hhigh.le]
  have hnext : Magnitude.unitsAt (m.rank + 1) = (s + 1) * 2 ^ d := by
    rw [hrank, Nat.add_assoc,
      Magnitude.unitsAt_binade (hlow.imp_left Nat.le_succ_of_le) hhigh]
  rw [hnext, hunits, Nat.succ_mul]
  refine Nat.add_le_add_left ?_ _
  rcases hlow with hlow | rfl
  · have hbinade : 32 ≤ binadeSize := by decide
    have hs : 32 ≤ s := Nat.le_trans hbinade hlow
    have hstep : 1 * 2 ^ d ≤ Magnitude.infinity.units := by
      refine Nat.le_trans ?_ (Nat.le_of_lt (Magnitude.isFinite_iff.1 hm))
      rw [hunits]
      exact Nat.mul_le_mul_right _ (by omega)
    obtain ⟨step, hstep⟩ := Magnitude.exists_units_eq (by decide) hstep
    have hle : step.units ≤ (twentieth m).units := by
      refine Magnitude.le_units_nearest unitsPerOne_pos ?_
      calc step.units * unitsPerOne ≤ 1 * 2 ^ d * (32 * factor.units) := by
            rw [hstep]
            exact Nat.mul_le_mul_left _ units_factor.2
        _ = 32 * 2 ^ d * factor.units := by ring
        _ ≤ s * 2 ^ d * factor.units :=
              Nat.mul_le_mul_right _ (Nat.mul_le_mul_right _ hs)
        _ = m.units * factor.units := by rw [hunits]
    rw [hstep, Nat.one_mul] at hle
    exact hle.trans (Nat.le_max_right ..)
  · rw [Nat.pow_zero]
    exact Nat.le_max_left ..

/-! ## Margins -/

/-- The magnitude of the number one. -/
def one : Magnitude := .nearest (1 * unitsPerOne) 1

theorem units_one : one.units = unitsPerOne := by decide +kernel

theorem margin_of_value_lt (hlow : low.isFinite = true)
    (hhigh : high.isFinite = true) (h : low.value < high.value) :
    margin low high =
      .signed false (.nearest (high.value - low.value).natAbs 1) *
        marginFactor := by
  have hspan := sub_of_value_lt hlow hhigh h
  have hpos : zero < high - low := by
    rw [hspan, Double.lt_iff]
    have hone :=
      @Magnitude.one_le_units_nearest (high.value - low.value).natAbs (by omega)
    refine ⟨signed_ne_nan _ _, signed_ne_nan _ _, ?_⟩
    rw [zero, value_positive, value_positive, Magnitude.units_zero]
    omega
  rw [margin]
  exact (if_pos hpos).trans (by rw [hspan])

theorem margin_of_value_eq (hlow : low.isFinite = true)
    (hhigh : high.isFinite = true) (h : low.value = high.value) :
    margin low high =
      Double.max (low.abs * marginFactor) (.signed false one) := by
  have hnot : ¬ zero < high - low := fun hlt => by
    have hneg : (-low).isFinite = true := (isFinite_neg low).trans hlow
    have hle : high - low ≤ zero := by
      refine add_le hhigh hneg nofun ?_
      rw [value_neg, zero, value_positive, Magnitude.units_zero]
      omega
    exact absurd (Double.lt_of_lt_of_le hlt hle) fun hself => by
      have := (Double.lt_iff.1 hself).2.2
      omega
  rw [margin]
  exact if_neg hnot

theorem max_positive (m n : Magnitude) :
    ∃ k : Magnitude,
      Double.max (.signed false m) (.signed false n) = .signed false k ∧
      k.units = Nat.max m.units n.units := by
  have hm : signed false m ≠ .nan := nofun
  have hn : signed false n ≠ .nan := nofun
  rw [max_of_ne_nan hm hn]
  by_cases hlt : signed false m < signed false n
  · refine ⟨n, if_pos hlt, (Nat.max_eq_right ?_).symm⟩
    have hle := (Double.le_iff.1 (Double.le_of_lt hlt)).2.2
    rwa [value_positive, value_positive, Int.ofNat_le] at hle
  · refine ⟨m, if_neg hlt, (Nat.max_eq_left ?_).symm⟩
    have hle := (Double.le_iff.1 (Double.le_of_not_lt hm hn hlt)).2.2
    rwa [value_positive, value_positive, Int.ofNat_le] at hle

theorem exists_margin_of_value_lt (hlow : low.isFinite = true)
    (hhigh : high.isFinite = true) (h : low.value < high.value) :
    ∃ k : Magnitude, margin low high = .signed false k := by
  rw [margin_of_value_lt hlow hhigh h]
  by_cases hspan :
    (Magnitude.nearest (high.value - low.value).natAbs 1).isFinite = true
  · exact ⟨_, mul_marginFactor hspan⟩
  · rw [Magnitude.eq_infinity_of_not_isFinite hspan]
    exact ⟨.infinity, infinity_mul isFinite_factor (by decide +kernel)⟩

/-- The margin of equal numbers is finite, and it is one or a twentieth,
whichever is greater. -/
theorem exists_margin_of_value_eq {s : Bool} {m : Magnitude}
    (hm : m.isFinite = true) (hhigh : high.isFinite = true)
    (h : (signed s m).value = high.value) :
    ∃ k : Magnitude, margin (.signed s m) high = .signed false k ∧
      k.isFinite = true ∧
      k.units = Nat.max (twentieth m).units unitsPerOne := by
  have hlow : (signed s m).isFinite = true := hm
  obtain ⟨k, hmax, hunits⟩ := max_positive (twentieth m) one
  refine ⟨k, ?_, ?_, hunits.trans (by rw [units_one])⟩
  · rw [margin_of_value_eq hlow hhigh h, ← hmax, ← mul_marginFactor hm]
    rfl
  · rw [Magnitude.isFinite_iff, hunits]
    refine Nat.max_lt.2 ⟨Magnitude.isFinite_iff.1 (isFinite_twentieth hm), ?_⟩
    exact Magnitude.isFinite_iff.1 (by decide +kernel)

theorem exists_margin (hlow : low.isFinite = true)
    (hhigh : high.isFinite = true) (hle : low ≤ high) :
    ∃ k : Magnitude, margin low high = .signed false k := by
  rcases Int.lt_or_eq_of_le (Double.le_iff.1 hle).2.2 with hlt | heq
  · exact exists_margin_of_value_lt hlow hhigh hlt
  · cases low with
    | nan => cases hlow
    | signed s m =>
        obtain ⟨k, hk, -⟩ := exists_margin_of_value_eq hlow hhigh heq
        exact ⟨k, hk⟩

/-- A number and its margin on both sides are not one and the same double. -/
theorem sub_margin_lt_of_value_eq {s : Bool} {m : Magnitude}
    (hm : m.isFinite = true) (hhigh : high.isFinite = true)
    (h : (signed s m).value = high.value) :
    signed s m - margin (.signed s m) high < high +
      margin (.signed s m) high := by
  obtain ⟨k, hk, hfinite, hunits⟩ := exists_margin_of_value_eq hm hhigh h
  have hpos := unitsPerOne_pos
  have hstep : Magnitude.unitsAt (m.rank + 1) ≤ m.units + k.units := by
    refine (units_succ_le hm).trans (Nat.add_le_add_left ?_ _)
    rw [hunits]
    exact Nat.max_le.2 ⟨Nat.le_trans hpos (Nat.le_max_right ..),
      Nat.le_max_left ..⟩
  obtain ⟨next, hnext⟩ :
    ∃ next : Magnitude, next.units = Magnitude.unitsAt (m.rank + 1) :=
    ⟨⟨m.rank + 1, of_decide_eq_true hm⟩, rfl⟩
  have hlt : m.units < next.units := by
    rw [hnext]
    exact Magnitude.unitsAt_lt_succ m.rank
  have hlow : (signed s m).isFinite = true := hm
  have hmargin : (signed false k).isFinite = true := hfinite
  rw [hk]
  cases s with
  | false =>
      rw [value_positive] at h
      refine Double.lt_of_le_of_lt (b := signed false m)
        (sub_positive_le hlow k) ?_
      refine Double.lt_of_lt_of_le (b := signed false next)
        (Double.lt_iff.2 ⟨signed_ne_nan _ _, signed_ne_nan _ _, ?_⟩) ?_
      · rw [value_positive, value_positive]
        exact Int.ofNat_lt.2 hlt
      · refine le_add hhigh hmargin nofun ?_
        rw [value_positive, value_positive]
        omega
  | true =>
      rw [value_negative] at h
      refine Double.lt_of_le_of_lt (b := signed true next)
        (add_le hlow ((isFinite_neg _).trans hmargin) nofun ?_) ?_
      · show (signed true m).value + (signed true k).value ≤
          (signed true next).value
        rw [value_negative, value_negative, value_negative]
        omega
      · refine Double.lt_of_lt_of_le (b := high)
          (Double.lt_iff.2 ⟨nofun, ne_nan_of_isFinite hhigh, ?_⟩)
            (le_add_positive hhigh k)
        rw [value_negative]
        omega

theorem sub_margin_lt (hlow : low.isFinite = true)
    (hhigh : high.isFinite = true) (hle : low ≤ high) :
    low - margin low high < high + margin low high := by
  rcases Int.lt_or_eq_of_le (Double.le_iff.1 hle).2.2 with hlt | heq
  · obtain ⟨k, hk⟩ := exists_margin_of_value_lt hlow hhigh hlt
    rw [hk]
    refine Double.lt_of_le_of_lt (sub_positive_le hlow k)
      (Double.lt_of_lt_of_le ?_ (le_add_positive hhigh k))
    exact Double.lt_iff.2 ⟨ne_nan_of_isFinite hlow,
      ne_nan_of_isFinite hhigh, hlt⟩
  · cases low with
    | nan => cases hlow
    | signed s m => exact sub_margin_lt_of_value_eq hlow hhigh heq

/-! ## Ranges around values -/

/-- Whether a range is not empty and covers all numbers of a list. -/
structure Encloses (range : AxisRange) (values : List Double) : Prop where
  first_lt_last : range.first < range.last
  covers : ∀ v ∈ values, v ≠ .nan → range.first ≤ v ∧ v ≤ range.last

theorem around_of_isFinite (hv : v ∈ values) (hnumber : v ≠ .nan)
    (hfinite : ∀ v ∈ values, v ≠ .nan → v.isFinite = true) :
    ∃ low ∈ values, ∃ high ∈ values, low.isFinite = true ∧
      high.isFinite = true ∧
      low ≤ high ∧ (∀ v ∈ values, v ≠ .nan → low ≤ v ∧ v ≤ high) ∧
      around values = ⟨low - margin low high, high + margin low high⟩ := by
  have hmin := least_mem hv hnumber
  have hmax := greatest_mem hv hnumber
  have hlow := hfinite _ hmin (least_spec values).1
  have hhigh := hfinite _ hmax (greatest_spec values).1
  refine ⟨_, hmin, _, hmax, hlow, hhigh, ?_, ?_, ?_⟩
  · exact Double.le_trans (least_le hv hnumber) (le_greatest hv hnumber)
  · exact fun v hv hnumber => ⟨least_le hv hnumber, le_greatest hv hnumber⟩
  · rw [around]
    exact if_pos (by rw [hlow, hhigh]; rfl)

theorem around_encloses (hv : v ∈ values) (hnumber : v ≠ .nan)
    (hfinite : ∀ v ∈ values, v ≠ .nan → v.isFinite = true) :
    (around values).Encloses values := by
  obtain ⟨low, -, high, -, hlow, hhigh, hle, hcovers, hrange⟩ :=
    around_of_isFinite hv hnumber hfinite
  rw [hrange]
  refine ⟨sub_margin_lt hlow hhigh hle, fun v hv hnumber => ?_⟩
  obtain ⟨k, hk⟩ := exists_margin hlow hhigh hle
  obtain ⟨hfirst, hlast⟩ := hcovers v hv hnumber
  dsimp only
  rw [hk]
  exact ⟨Double.le_trans (sub_positive_le hlow k) hfirst,
    Double.le_trans hlast (le_add_positive hhigh k)⟩

/-! ## Finite ranges -/

/-- The magnitude of 2^1019. -/
def narrow : Magnitude where
  rank := infinityRank - 5 * binadeSize
  rank_le := Nat.sub_le ..

/-- The magnitude of 2^1022. -/
def reach : Magnitude where
  rank := infinityRank - 2 * binadeSize
  rank_le := Nat.sub_le ..

/-- The magnitude of 2^1023. -/
def wide : Magnitude where
  rank := infinityRank - binadeSize
  rank_le := Nat.sub_le ..

theorem ofNat_reach :
    Double.ofNat (Nat.pow 2 1022) = .signed false reach := by decide +kernel

theorem isFinite_wide : wide.isFinite = true := by decide

theorem units_reach_wide :
    unitsPerOne ≤ narrow.units ∧ reach.units = 8 * narrow.units ∧
    wide.units = 16 * narrow.units := by decide +kernel

theorem natAbs_value_le (h : v.abs ≤ .ofNat (Nat.pow 2 1022)) :
    v.value.natAbs ≤ reach.units := by
  rw [ofNat_reach] at h
  cases v with
  | nan => exact Nat.zero_le _
  | signed s m =>
      have hle : (signed false m).value ≤ (signed false reach).value :=
        (Double.le_iff.1 h).2.2
      rw [value_positive, value_positive, Int.ofNat_le] at hle
      rwa [natAbs_value]

/-- The margin of moderate numbers is less than their greatest size. -/
theorem exists_margin_le (hlow : low.isFinite = true)
    (hhigh : high.isFinite = true) (hle : low ≤ high)
    (hlowReach : low.value.natAbs ≤ reach.units)
    (hhighReach : high.value.natAbs ≤ reach.units) :
    ∃ k : Magnitude, margin low high = .signed false k ∧
      k.units ≤ narrow.units := by
  obtain ⟨hone, hreach, hwide⟩ := units_reach_wide
  rcases Int.lt_or_eq_of_le (Double.le_iff.1 hle).2.2 with hlt | heq
  · have hspan :=
      @Magnitude.units_nearest_le wide (high.value - low.value).natAbs
        1 Nat.one_pos (by omega)
    rw [margin_of_value_lt hlow hhigh hlt,
      mul_marginFactor (Magnitude.isFinite_of_units_le isFinite_wide hspan)]
    exact ⟨_, rfl, units_twentieth_le (hspan.trans (Nat.le_of_eq hwide))⟩
  · cases low with
    | nan => cases hlow
    | signed s m =>
        obtain ⟨k, hk, -, hunits⟩ := exists_margin_of_value_eq hlow hhigh heq
        rw [natAbs_value] at hlowReach
        refine ⟨k, hk, ?_⟩
        rw [hunits]
        exact Nat.max_le.2 ⟨units_twentieth_le (by omega), hone⟩

theorem around_isFinite (hv : v ∈ values) (hnumber : v ≠ .nan)
    (hmoderate : ∀ v ∈ values, v ≠ .nan → v.abs ≤ .ofNat (Nat.pow 2 1022)) :
    (around values).first.isFinite = true ∧
      (around values).last.isFinite = true := by
  have hvalue : ∀ v ∈ values, v ≠ .nan → v.value.natAbs ≤ reach.units :=
    fun v hv hnumber => natAbs_value_le (hmoderate v hv hnumber)
  obtain ⟨-, hreach, hwide⟩ := units_reach_wide
  have hbelow := Magnitude.isFinite_iff.1 isFinite_wide
  have hfinite : ∀ v ∈ values, v ≠ .nan → v.isFinite = true :=
    fun v hv hnumber =>
      isFinite_iff_value.2 ⟨hnumber, by have := hvalue v hv hnumber; omega⟩
  obtain ⟨low, hmin, high, hmax, hlow, hhigh, hle, -, hrange⟩ :=
    around_of_isFinite hv hnumber hfinite
  have hlowReach := hvalue low hmin (ne_nan_of_isFinite hlow)
  have hhighReach := hvalue high hmax (ne_nan_of_isFinite hhigh)
  obtain ⟨k, hk, hnarrow⟩ :=
    exists_margin_le hlow hhigh hle hlowReach hhighReach
  have hkFinite : (signed false k).isFinite = true :=
    Magnitude.isFinite_iff.2 (by omega)
  rw [hrange]
  dsimp only
  rw [hk]
  have hwideFinite : ∀ s, (signed s wide).isFinite = true :=
    fun _ => isFinite_wide
  constructor
  · have hfirst : signed true wide ≤ low - signed false k := by
      refine le_add hlow ((isFinite_neg _).trans hkFinite) nofun ?_
      rw [value_neg, value_negative, value_positive]
      omega
    exact isFinite_of_between (hwideFinite true) hlow hfirst
      (sub_positive_le hlow k)
  · have hlast : high + signed false k ≤ signed false wide := by
      refine add_le hhigh hkFinite nofun ?_
      rw [value_positive, value_positive]
      omega
    exact isFinite_of_between hhigh (hwideFinite false)
      (le_add_positive hhigh k) hlast

end AxisRange

end BenchReport
