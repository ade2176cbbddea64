import BenchReport.Double.Arithmetic
import BenchReport.Proofs.Double.Rounding

/-!
# Rounded results between doubles

Comparing two numbers is comparing their values in units, and here infinity has
a value too. An exact result is rounded to a nearest magnitude, so rounding
passes no magnitude: what the exact result is at most, the rounded one is at
most, and the same from below (`units_nearest_le`, `le_units_nearest`). Sums
inherit both bounds with their signs, `add_le` and `le_add`, and from there on
nothing has to be known of how a sum is rounded.
-/

namespace BenchReport

namespace Magnitude

variable {m n : Magnitude} {num den : Nat}

theorem units_lt_units_iff : m.units < n.units ↔ m.rank < n.rank :=
  unitsAt_strictMono.lt_iff_lt

theorem units_zero : zero.units = 0 := unitsAt_zero

theorem units_eq_zero_iff : m.units = 0 ↔ m.rank = 0 := by
  rw [units, ← unitsAt_zero]
  exact unitsAt_strictMono.injective.eq_iff

theorem isFinite_iff : m.isFinite = true ↔ m.units < infinity.units := by
  rw [units_lt_units_iff]
  exact decide_eq_true_iff

theorem isFinite_of_units_le (hn : n.isFinite = true) (h : m.units ≤ n.units) :
    m.isFinite = true :=
  isFinite_iff.2 (Nat.lt_of_le_of_lt h (isFinite_iff.1 hn))

/-! ## Bounds of rounding -/

theorem units_nearest_le (hden : 0 < den) (h : num ≤ m.units * den) :
    (nearest num den).units ≤ m.units := by
  have hclosest := nearest_closest num hden m
  refine Nat.le_of_mul_le_mul_right ?_ hden
  omega

theorem le_units_nearest (hden : 0 < den) (h : m.units * den ≤ num) :
    m.units ≤ (nearest num den).units := by
  have hclosest := nearest_closest num hden m
  refine Nat.le_of_mul_le_mul_right ?_ hden
  omega

theorem units_nearest_mono {num' : Nat} (hden : 0 < den) (h : num ≤ num') :
    (nearest num den).units ≤ (nearest num' den).units := by
  rcases Nat.eq_or_lt_of_le h with rfl | hlt
  · exact Nat.le_refl _
  · have hlow := nearest_closest num hden (nearest num' den)
    have hhigh := nearest_closest num' hden (nearest num den)
    refine Nat.le_of_not_lt fun hcross => ?_
    have hcross := Nat.mul_lt_mul_of_pos_right hcross hden
    omega

theorem units_le_infinity (m : Magnitude) : m.units ≤ infinity.units :=
  unitsAt_strictMono.monotone m.rank_le

theorem nearest_eq_zero (hden : 0 < den) (h : 2 * num < den) :
    nearest num den = .zero := by
  refine eq_of_rank_eq (units_eq_zero_iff.1 ?_)
  have hclosest := nearest_closest num hden .zero
  rw [units_zero, Nat.zero_mul] at hclosest
  by_contra hne
  have hle : den ≤ (nearest num den).units * den :=
    Nat.le_mul_of_pos_left den (Nat.pos_of_ne_zero hne)
  omega

theorem nearest_eq_infinity (hden : 0 < den) (h : infinity.units * den ≤ num) :
    nearest num den = .infinity := by
  have hle := le_units_nearest hden h
  have hrank := unitsAt_strictMono.le_iff_le.1 hle
  exact eq_of_rank_eq (Nat.le_antisymm (nearest num den).rank_le hrank)

/-- What has at most 53 binary digits before its zeros is a size, if it is less
than infinity. -/
theorem exists_units_eq {k : Nat} {a : Nat} (ha : a < 2 ^ 53)
    (h : a * 2 ^ k ≤ infinity.units) :
    ∃ m : Magnitude, m.units = a * 2 ^ k := by
  have hunits := unitsAt_rankBelow_mul_pow k ha
  refine ⟨⟨rankBelow (a * 2 ^ k), ?_⟩, hunits⟩
  rw [← hunits] at h
  exact unitsAt_strictMono.le_iff_le.1 h

theorem one_le_units_nearest (h : 0 < num) : 1 ≤ (nearest num 1).units := by
  obtain ⟨m, hm⟩ : ∃ m : Magnitude, m.units = 1 * 2 ^ 0 :=
    exists_units_eq (by decide) (by decide +kernel)
  have hle : m.units ≤ (nearest num 1).units :=
    le_units_nearest Nat.one_pos (by omega)
  omega

end Magnitude

namespace Double

open Magnitude

variable {a b c : Double}

/-! ## Values -/

/-- The number in units, infinity being 2^1024; zero for what is no number. -/
def value : Double → Int
  | .nan => 0
  | .signed negative m => signedUnits negative m

theorem value_positive (m : Magnitude) : (signed false m).value = m.units := by
  rw [value, signedUnits, if_neg Bool.false_ne_true]

theorem value_negative (m : Magnitude) : (signed true m).value = -m.units := by
  rw [value, signedUnits, if_pos rfl]

theorem natAbs_value (negative : Bool) (m : Magnitude) :
    (signed negative m).value.natAbs = m.units := by
  cases negative with
  | false => rw [value_positive, Int.natAbs_natCast]
  | true => rw [value_negative, Int.natAbs_neg, Int.natAbs_natCast]

theorem value_lt_iff {s t : Bool} {m n : Magnitude} :
    (if s then -(m.rank : Int) else m.rank) <
      (if t then -(n.rank : Int) else n.rank) ↔
        (signed s m).value < (signed t n).value := by
  have hm := units_eq_zero_iff (m := m)
  have hn := units_eq_zero_iff (m := n)
  have hmn := units_lt_units_iff (m := m) (n := n)
  have hnm := units_lt_units_iff (m := n) (n := m)
  cases s <;> cases t <;>
    simp only [value_positive, value_negative, if_true, if_false,
      Bool.false_eq_true] <;> omega

protected theorem lt_iff : a < b ↔ a ≠ .nan ∧ b ≠ .nan ∧ a.value < b.value := by
  cases a with
  | nan => exact iff_of_false (by cases b <;> exact nofun) fun h => h.1 rfl
  | signed s m =>
      cases b with
      | nan => exact iff_of_false nofun fun h => h.2.1 rfl
      | signed t n =>
          rw [← value_lt_iff]
          exact decide_eq_true_iff.trans
            ⟨fun h => ⟨nofun, nofun, h⟩, fun h => h.2.2⟩

protected theorem le_iff : a ≤ b ↔ a ≠ .nan ∧ b ≠ .nan ∧ a.value ≤ b.value := by
  cases a with
  | nan => exact iff_of_false (by cases b <;> exact nofun) fun h => h.1 rfl
  | signed s m =>
      cases b with
      | nan => exact iff_of_false nofun fun h => h.2.1 rfl
      | signed t n =>
          rw [← Int.not_lt, ← value_lt_iff, Int.not_lt]
          exact decide_eq_true_iff.trans
            ⟨fun h => ⟨nofun, nofun, h⟩, fun h => h.2.2⟩

protected theorem le_refl (ha : a ≠ .nan) : a ≤ a :=
  Double.le_iff.2 ⟨ha, ha, Int.le_refl _⟩

protected theorem le_trans (hab : a ≤ b) (hbc : b ≤ c) : a ≤ c := by
  rw [Double.le_iff] at hab hbc ⊢
  exact ⟨hab.1, hbc.2.1, Int.le_trans hab.2.2 hbc.2.2⟩

protected theorem lt_of_le_of_lt (hab : a ≤ b) (hbc : b < c) : a < c := by
  rw [Double.le_iff] at hab
  rw [Double.lt_iff] at hbc ⊢
  exact ⟨hab.1, hbc.2.1, Int.lt_of_le_of_lt hab.2.2 hbc.2.2⟩

protected theorem lt_of_lt_of_le (hab : a < b) (hbc : b ≤ c) : a < c := by
  rw [Double.lt_iff] at hab ⊢
  rw [Double.le_iff] at hbc
  exact ⟨hab.1, hbc.2.1, Int.lt_of_lt_of_le hab.2.2 hbc.2.2⟩

protected theorem le_of_lt (h : a < b) : a ≤ b := by
  rw [Double.lt_iff] at h
  exact Double.le_iff.2 ⟨h.1, h.2.1, Int.le_of_lt h.2.2⟩

protected theorem le_of_not_lt (ha : a ≠ .nan) (hb : b ≠ .nan) (h : ¬ a < b) :
    b ≤ a :=
  Double.le_iff.2 ⟨hb, ha, Int.le_of_not_gt fun hlt =>
    h (Double.lt_iff.2 ⟨ha, hb, hlt⟩)⟩

/-- A function of magnitudes that keeps their order, and zero, keeps the order
of doubles when they keep their signs. -/
theorem signed_le_signed_of_mono {f : Magnitude → Magnitude}
    (hzero : f .zero = .zero)
    (hmono : ∀ {m n : Magnitude}, m.units ≤ n.units → (f m).units ≤ (f n).units)
    {s t : Bool} {m n : Magnitude} (h : signed s m ≤ signed t n) :
    signed s (f m) ≤ signed t (f n) := by
  have hvalue := (Double.le_iff.1 h).2.2
  refine Double.le_iff.2 ⟨nofun, nofun, ?_⟩
  have hnone : ∀ {k : Magnitude}, k.units = 0 → (f k).units = 0 := by
    intro k hk
    have hle := hmono (m := k) (n := .zero) (by omega)
    rw [hzero, units_zero] at hle
    omega
  cases s <;> cases t <;> simp only [value_positive, value_negative] at hvalue ⊢
  · exact Int.ofNat_le.2 (hmono (Int.ofNat_le.1 hvalue))
  · have hm := hnone (k := m) (by omega)
    have hn := hnone (k := n) (by omega)
    omega
  · omega
  · have hle := hmono (m := n) (n := m) (by omega)
    omega

theorem exists_signed_of_zero_le (h : zero ≤ a) :
    ∃ s m, a = .signed s m ∧ (s = true → m = .zero) := by
  obtain ⟨-, hnumber, hvalue⟩ := Double.le_iff.1 h
  cases a with
  | nan => exact absurd rfl hnumber
  | signed s m =>
      refine ⟨s, m, rfl, ?_⟩
      rintro rfl
      rw [zero, value_positive, value_negative, units_zero] at hvalue
      exact eq_of_rank_eq (units_eq_zero_iff.1 (by omega))

/-! ## Finite numbers -/

theorem signed_ne_nan (s : Bool) (m : Magnitude) : signed s m ≠ .nan :=
  nofun

theorem ne_nan_of_isFinite (h : a.isFinite = true) : a ≠ .nan := by
  rintro rfl
  cases h

theorem isFinite_iff_value :
    a.isFinite = true ↔
      a ≠ .nan ∧ a.value.natAbs < Magnitude.infinity.units := by
  cases a with
  | nan => exact iff_of_false nofun fun h => h.1 rfl
  | signed s m =>
      rw [natAbs_value]
      exact Magnitude.isFinite_iff.trans ⟨fun h => ⟨nofun, h⟩, fun h => h.2⟩

/-- What lies between finite numbers is finite. -/
theorem isFinite_of_between (ha : a.isFinite = true) (hc : c.isFinite = true)
    (hab : a ≤ b) (hbc : b ≤ c) : b.isFinite = true := by
  rw [isFinite_iff_value] at ha hc ⊢
  rw [Double.le_iff] at hab hbc
  exact ⟨hab.2.1, by omega⟩

theorem isFinite_of_abs_le (hb : b.isFinite = true) (h : a.abs ≤ b) :
    a.isFinite = true := by
  cases a with
  | nan => exact absurd rfl (Double.le_iff.1 h).1
  | signed s m =>
      have hle : (signed false m).value ≤ b.value := (Double.le_iff.1 h).2.2
      have hlt := (isFinite_iff_value.1 hb).2
      rw [value_positive] at hle
      refine isFinite_iff_value.2 ⟨nofun, ?_⟩
      rw [natAbs_value]
      omega

theorem value_neg (a : Double) : (-a).value = -a.value := by
  cases a with
  | nan => rfl
  | signed s m =>
      show (signed (!s) m).value = _
      cases s with
      | false => rw [Bool.not_false, value_negative, value_positive]
      | true => rw [Bool.not_true, value_negative, value_positive, Int.neg_neg]

theorem isFinite_neg (a : Double) : (-a).isFinite = a.isFinite := by
  cases a <;> rfl

/-! ## Sums -/

/-- The double nearest to a number of units. -/
def ofUnits (total : Int) : Double :=
  .signed (total < 0) (.nearest total.natAbs 1)

theorem ofUnits_of_neg {total : Int} (h : total < 0) :
    ofUnits total = .signed true (.nearest total.natAbs 1) := by
  rw [ofUnits, decide_eq_true h]

theorem ofUnits_of_not_neg {total : Int} (h : ¬ total < 0) :
    ofUnits total = .signed false (.nearest total.natAbs 1) := by
  rw [ofUnits, decide_eq_false h]

theorem ofUnits_le {total : Int} (hc : c ≠ .nan) (h : total ≤ c.value) :
    ofUnits total ≤ c := by
  refine Double.le_iff.2 ⟨nofun, hc, ?_⟩
  cases c with
  | nan => exact absurd rfl hc
  | signed t n =>
      have habove := @units_nearest_le n total.natAbs 1 Nat.one_pos
      have hbelow := @le_units_nearest n total.natAbs 1 Nat.one_pos
      by_cases hneg : total < 0
      · rw [ofUnits_of_neg hneg]
        cases t <;> simp only [value_positive, value_negative] at h ⊢ <;> omega
      · rw [ofUnits_of_not_neg hneg]
        cases t <;> simp only [value_positive, value_negative] at h ⊢ <;> omega

theorem le_ofUnits {total : Int} (hc : c ≠ .nan) (h : c.value ≤ total) :
    c ≤ ofUnits total := by
  refine Double.le_iff.2 ⟨hc, nofun, ?_⟩
  cases c with
  | nan => exact absurd rfl hc
  | signed t n =>
      have habove := @units_nearest_le n total.natAbs 1 Nat.one_pos
      have hbelow := @le_units_nearest n total.natAbs 1 Nat.one_pos
      by_cases hneg : total < 0
      · rw [ofUnits_of_neg hneg]
        cases t <;> simp only [value_positive, value_negative] at h ⊢ <;> omega
      · rw [ofUnits_of_not_neg hneg]
        cases t <;> simp only [value_positive, value_negative] at h ⊢ <;> omega

theorem add_of_finite {s t : Bool} {m n : Magnitude} (hm : m.isFinite = true)
    (hn : n.isFinite = true) :
    signed s m + signed t n =
      if (signed s m).value + (signed t n).value = 0 then .signed (s && t) .zero
      else ofUnits ((signed s m).value + (signed t n).value) := by
  show add _ _ = _
  rw [add, hm, hn]
  rfl

theorem value_add (ha : a.isFinite = true) (hb : b.isFinite = true) :
    (a + b).value = (ofUnits (a.value + b.value)).value := by
  cases a with
  | nan => cases ha
  | signed s m =>
      cases b with
      | nan => cases hb
      | signed t n =>
          rw [add_of_finite ha hb]
          split
          · next hzero =>
            have hnearest :=
              @units_nearest_le .zero 0 1 Nat.one_pos (Nat.zero_le _)
            rw [hzero, ofUnits_of_not_neg (by decide), value_positive]
            rw [units_zero] at hnearest
            have hvalue : (signed (s && t) .zero).value.natAbs = 0 :=
              (natAbs_value _ _).trans units_zero
            show _ = ((Magnitude.nearest 0 1).units : Int)
            omega
          · rfl

theorem add_ne_nan (ha : a.isFinite = true) (hb : b ≠ .nan) : a + b ≠ .nan := by
  cases a with
  | nan => cases ha
  | signed s m =>
      cases b with
      | nan => exact absurd rfl hb
      | signed t n =>
          show add _ _ ≠ _
          have hm : m.isFinite = true := ha
          rw [add, hm]
          cases n.isFinite with
          | true =>
              simp only [Bool.and_self, if_true]
              split <;> exact nofun
          | false => exact nofun

theorem add_le (ha : a.isFinite = true) (hb : b.isFinite = true) (hc : c ≠ .nan)
    (h : a.value + b.value ≤ c.value) : a + b ≤ c := by
  refine Double.le_iff.2 ⟨add_ne_nan ha (ne_nan_of_isFinite hb), hc, ?_⟩
  rw [value_add ha hb]
  exact (Double.le_iff.1 (ofUnits_le hc h)).2.2

theorem le_add (ha : a.isFinite = true) (hb : b.isFinite = true) (hc : c ≠ .nan)
    (h : c.value ≤ a.value + b.value) : c ≤ a + b := by
  refine Double.le_iff.2 ⟨hc, add_ne_nan ha (ne_nan_of_isFinite hb), ?_⟩
  rw [value_add ha hb]
  exact (Double.le_iff.1 (le_ofUnits hc h)).2.2

theorem add_infinity (ha : a.isFinite = true) : a + infinity = infinity := by
  cases a with
  | nan => cases ha
  | signed s m =>
      have hm : m.isFinite = true := ha
      show add _ (signed false .infinity) = _
      rw [add, hm]
      rfl

theorem add_negativeInfinity (ha : a.isFinite = true) :
    a + negativeInfinity = negativeInfinity := by
  cases a with
  | nan => cases ha
  | signed s m =>
      have hm : m.isFinite = true := ha
      show add _ (signed true .infinity) = _
      rw [add, hm]
      rfl

/-! ## Sums and products of positive numbers -/

theorem sub_of_value_lt {low high : Double} (hlow : low.isFinite = true)
    (hhigh : high.isFinite = true) (h : low.value < high.value) :
    high - low = .signed false
      (.nearest (high.value - low.value).natAbs 1) := by
  have hfinite := isFinite_neg low
  have hvalue := value_neg low
  show high + -low = _
  cases high with
  | nan => cases hhigh
  | signed s m =>
      cases hneg : -low with
      | nan =>
          rw [hneg, hlow] at hfinite
          cases hfinite
      | signed t n =>
          rw [hneg] at hfinite hvalue
          rw [add_of_finite hhigh (hfinite.trans hlow), if_neg (by omega),
            ofUnits_of_not_neg (by omega), hvalue, ← Int.sub_eq_add_neg]

theorem le_add_positive (ha : a.isFinite = true) (k : Magnitude) :
    a ≤ a + signed false k := by
  have hne := ne_nan_of_isFinite ha
  by_cases hk : k.isFinite = true
  · exact le_add ha hk hne (by rw [value_positive]; omega)
  · obtain rfl := eq_infinity_of_not_isFinite hk
    rw [show a + signed false .infinity = .infinity from add_infinity ha]
    refine Double.le_iff.2 ⟨hne, nofun, ?_⟩
    have hlt := (isFinite_iff_value.1 ha).2
    rw [infinity, value_positive]
    omega

theorem sub_positive_le (ha : a.isFinite = true) (k : Magnitude) :
    a - signed false k ≤ a := by
  have hne := ne_nan_of_isFinite ha
  show a + signed true k ≤ a
  by_cases hk : k.isFinite = true
  · exact add_le ha hk hne (by rw [value_negative]; omega)
  · obtain rfl := eq_infinity_of_not_isFinite hk
    rw [show a + signed true .infinity =
      .negativeInfinity from add_negativeInfinity ha]
    refine Double.le_iff.2 ⟨nofun, hne, ?_⟩
    have hlt := (isFinite_iff_value.1 ha).2
    rw [negativeInfinity, value_negative]
    omega

theorem mul_positive {m n : Magnitude} (hm : m.isFinite = true)
    (hn : n.isFinite = true) :
    signed false m * signed false n =
      .signed false (.nearest (m.units * n.units) unitsPerOne) := by
  show mul _ _ = _
  rw [mul, hm, hn]
  rfl

theorem infinity_mul {n : Magnitude} (hn : n.isFinite = true)
    (hpos : n.rank ≠ 0) :
    signed false .infinity * signed false n = .infinity := by
  have hinfinity : Magnitude.infinity.rank ≠ 0 := by decide
  show mul _ _ = _
  rw [mul, hn, Bool.and_true, if_neg (by decide),
    if_neg (by simp [hinfinity, hpos])]
  rfl

end Double

end BenchReport
