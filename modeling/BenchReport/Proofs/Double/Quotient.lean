import BenchReport.Proofs.Double.Count
import BenchReport.Proofs.Double.Order

/-!
# Quotients of doubles

A quotient of finite numbers is rounded once, and rounding keeps the order of
fractions (`units_nearest_le_of_ratio`). So a quotient by a positive number has
the sign of its dividend, it does not grow with its divisor, and a positive
number divided by itself is exactly one.
-/

namespace BenchReport

namespace Magnitude

theorem units_pos_iff {m : Magnitude} : 0 < m.units ↔ m.rank ≠ 0 :=
  Nat.pos_iff_ne_zero.trans (not_congr units_eq_zero_iff)

/-- A fraction that is not greater is not rounded to more. -/
theorem units_nearest_le_of_ratio {num den num' den' : ℕ} (hden : 0 < den)
    (hden' : 0 < den') (h : num * den' ≤ num' * den) :
    (nearest num den).units ≤ (nearest num' den').units := by
  have hcommon := Nat.mul_pos hden hden'
  have hfirst : nearest num den = nearest (num * den') (den * den') :=
    nearest_eq_of_ratio hden hcommon (by ac_rfl)
  have hsecond : nearest num' den' = nearest (num' * den) (den * den') :=
    nearest_eq_of_ratio hden' hcommon (by ac_rfl)
  rw [hfirst, hsecond]
  exact units_nearest_mono hcommon h

end Magnitude

namespace Double

variable {a b c : Double}

theorem div_of_finite {s : Bool} {m n : Magnitude} (hm : m.isFinite = true)
    (hn : n.isFinite = true) (hpos : n.rank ≠ 0) :
    signed s m / signed false n =
      .signed s (.nearest (m.units * unitsPerOne) n.units) := by
  show div _ _ = _
  rw [div, hm, hn, Bool.and_self, if_pos rfl, if_neg hpos, Bool.bne_false]

theorem exists_magnitude_of_pos (hfinite : b.isFinite = true)
    (hpos : zero < b) :
    ∃ n : Magnitude, b = .signed false n ∧ n.isFinite = true ∧ n.rank ≠ 0 := by
  have hvalue := (Double.lt_iff.1 hpos).2.2
  rw [zero, value_positive, Magnitude.units_zero] at hvalue
  cases b with
  | nan => cases hfinite
  | signed s n =>
      cases s with
      | true =>
          rw [value_negative] at hvalue
          omega
      | false =>
          rw [value_positive] at hvalue
          exact ⟨n, rfl, hfinite,
            Magnitude.units_pos_iff.1 (Int.ofNat_lt.1 hvalue)⟩

theorem zero_le_div (ha : a.isFinite = true) (hzero : zero ≤ a)
    (hb : b.isFinite = true) (hpos : zero < b) : zero ≤ a / b := by
  obtain ⟨n, rfl, hn, hrank⟩ := exists_magnitude_of_pos hb hpos
  obtain ⟨s, m, rfl, hnegative⟩ := exists_signed_of_zero_le hzero
  have hden := Magnitude.units_pos_iff.2 hrank
  rw [div_of_finite ha hn hrank]
  refine Double.le_iff.2 ⟨signed_ne_nan _ _, signed_ne_nan _ _, ?_⟩
  rw [zero, value_positive, Magnitude.units_zero]
  cases s with
  | false =>
      rw [value_positive]
      omega
  | true =>
      have hnone : m.units * unitsPerOne = 0 := by
        rw [hnegative rfl, Magnitude.units_zero, Nat.zero_mul]
      rw [value_negative,
        Magnitude.nearest_eq_zero hden (by rw [hnone]; exact hden),
        Magnitude.units_zero]
      exact Int.le_refl 0

/-- Dividing by one or more keeps a magnitude finite. -/
theorem isFinite_div {m n : Magnitude} (hm : m.isFinite = true)
    (hn : n.isFinite = true) (hone : unitsPerOne ≤ n.units) :
    (signed false m / signed false n).isFinite = true := by
  have hpos : 0 < n.units := Nat.lt_of_lt_of_le unitsPerOne_pos hone
  rw [div_of_finite hm hn (Magnitude.units_pos_iff.1 hpos)]
  exact Magnitude.isFinite_of_units_le hm
    (Magnitude.units_nearest_le hpos (Nat.mul_le_mul_left _ hone))

theorem div_self (hfinite : b.isFinite = true) (hpos : zero < b) :
    b / b = .ofNat 1 := by
  obtain ⟨n, rfl, hn, hrank⟩ := exists_magnitude_of_pos hfinite hpos
  have hratio : n.units * unitsPerOne * 1 = 1 * unitsPerOne * n.units := by
    rw [Nat.mul_one, Nat.one_mul, Nat.mul_comm]
  rw [div_of_finite hn hn hrank, ofNat_eq,
    Magnitude.nearest_eq_of_ratio (Magnitude.units_pos_iff.2 hrank)
      Nat.one_pos hratio]

/-- The quotient by a greater number is not greater. -/
theorem div_le_div_of_le (ha : a.isFinite = true) (hpos : zero < a)
    (hb : b.isFinite = true) (hzero : zero < b) (hc : c.isFinite = true)
    (hle : b ≤ c) : a / c ≤ a / b := by
  obtain ⟨k, rfl, hk, -⟩ := exists_magnitude_of_pos ha hpos
  obtain ⟨m, rfl, hm, hmrank⟩ := exists_magnitude_of_pos hb hzero
  obtain ⟨n, rfl, hn, hnrank⟩ :=
    exists_magnitude_of_pos hc (Double.lt_of_lt_of_le hzero hle)
  have hvalue := (Double.le_iff.1 hle).2.2
  rw [value_positive, value_positive, Int.ofNat_le] at hvalue
  rw [div_of_finite hk hm hmrank, div_of_finite hk hn hnrank]
  refine Double.le_iff.2 ⟨signed_ne_nan _ _, signed_ne_nan _ _, ?_⟩
  rw [value_positive, value_positive, Int.ofNat_le]
  exact Magnitude.units_nearest_le_of_ratio (Magnitude.units_pos_iff.2 hnrank)
    (Magnitude.units_pos_iff.2 hmrank) (Nat.mul_le_mul_left _ hvalue)

end Double

end BenchReport
