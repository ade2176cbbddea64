import BenchReport.Proofs.Double.Order
import Mathlib.Algebra.Order.Field.Basic
import Mathlib.Algebra.Order.Field.Rat
import Mathlib.Data.Rat.Cast.Order
import Mathlib.Tactic.FieldSimp

/-!
# Exact values

What a rounded result should be is said here without any rounding, on the line
of rational numbers. A double has an exact value there, and so has infinity,
which stands where one more binade would begin. A number is rounded to the
double that none is nearer to, and to the one whose last binary digit is even if
two are as near (`IsRounded`); the places of doubles count up to that digit, so
a rank is even exactly if the digit is.

All the distances have one denominator, so they compare as integers
(`abs_div_sub_div`), and the nearest magnitude is the nearest double on its own
side of zero. The other side cannot come nearer, since zero is between.
-/

namespace BenchReport

/-! ## Signs -/

/-- A natural number with a sign. -/
def withSign (negative : Bool) (n : ℕ) : ℤ :=
  if negative then -n else n

theorem withSign_false (n : ℕ) : withSign false n = n := rfl

theorem withSign_zero (negative : Bool) : withSign negative 0 = 0 := by
  cases negative <;> rfl

theorem withSign_mul (negative : Bool) (n k : ℕ) :
    withSign negative n * k = withSign negative (n * k) := by
  cases negative <;> simp [withSign]

theorem natAbs_withSign_sub (negative : Bool) (n k : ℕ) :
    (withSign negative n - withSign negative k).natAbs =
      ((n : ℤ) - k).natAbs := by
  cases negative with
  | false => rfl
  | true =>
      simp only [withSign, if_true]
      omega

theorem natAbs_withSign_sub_of_ne {s t : Bool} (h : s ≠ t) (n k : ℕ) :
    (withSign s n - withSign t k).natAbs = n + k := by
  cases s <;> cases t
  · exact absurd rfl h
  · simp only [withSign, if_true, if_false, Bool.false_eq_true]
    omega
  · simp only [withSign, if_true, if_false, Bool.false_eq_true]
    omega
  · exact absurd rfl h

/-! ## Integers -/

/-- Quotients with a common part in their denominators differ by a whole number
of parts of both. -/
theorem abs_div_sub_div (v w : ℤ) {units den : ℕ} (hunits : 0 < units)
    (hden : 0 < den) :
    |(v : ℚ) / units - w / (den * units)| = ((v * den - w).natAbs : ℚ) /
      (den * units) := by
  have hunits : (0 : ℚ) < units := Nat.cast_pos.2 hunits
  have hden : (0 : ℚ) < den := Nat.cast_pos.2 hden
  have hsub : (v : ℚ) / units - w / (den * units) =
      ((v * den - w : ℤ) : ℚ) / (den * units) := by
    push_cast
    field_simp
  rw [hsub, abs_div, abs_of_pos (mul_pos hden hunits), Nat.cast_natAbs,
    Int.cast_abs]

/-- Whether no integer is nearer to a number, where the integer is even if
another one is as near. -/
def IsRoundedInteger (n : ℤ) (q : ℚ) : Prop :=
  ∀ k : ℤ, |(n : ℚ) - q| ≤ |k - q| ∧ (k ≠ n → |(n : ℚ) - q| = |k - q| → Even n)

theorem IsRoundedInteger.neg {n : ℤ} {q : ℚ} (h : IsRoundedInteger n q) :
    IsRoundedInteger (-n) (-q) := by
  have hdistance : ∀ k : ℤ, |((-k : ℤ) : ℚ) - -q| = |k - q| := by
    intro k
    rw [Int.cast_neg, neg_sub_neg, abs_sub_comm]
  intro k
  obtain ⟨hle, heven⟩ := h (-k)
  have hk := hdistance (-k)
  rw [neg_neg] at hk
  rw [hdistance n, hk]
  exact ⟨hle, fun hne htie =>
    (heven (fun heq => hne (by rw [← heq, neg_neg])) htie).neg⟩

namespace Double

variable {x y : Double} {num den : ℕ}

/-! ## Doubles -/

/-- The exact value of a double; infinity stands for 2^1024, and what is no
number for zero. -/
def exact (x : Double) : ℚ :=
  x.value / unitsPerOne

/-- Whether no double is nearer to a number, where the last binary digit of the
double is even if another one is as near. -/
def IsRounded (x : Double) (q : ℚ) : Prop :=
  ∃ s m, x = .signed s m ∧ ∀ y ≠ nan,
    |x.exact - q| ≤ |y.exact - q| ∧
    (y.exact ≠ x.exact → |x.exact - q| = |y.exact - q| → Even m.rank)

theorem value_signed (negative : Bool) (m : Magnitude) :
    (signed negative m).value = withSign negative m.units := rfl

theorem exact_eq_iff : x.exact = y.exact ↔ x.value = y.value := by
  have hunits : (unitsPerOne : ℚ) ≠ 0 := Nat.cast_ne_zero.2 unitsPerOne_pos.ne'
  rw [exact, exact, div_left_inj' hunits, Int.cast_inj]

theorem abs_exact_sub (y : Double) (w : ℤ) (hden : 0 < den) :
    |y.exact - w / (den * unitsPerOne)| =
      ((y.value * den - w).natAbs : ℚ) / (den * unitsPerOne) :=
  abs_div_sub_div y.value w unitsPerOne_pos hden

/-- No double is nearer to a quotient of units than the nearest magnitude with
its sign, and one that is as near has another value only if that magnitude
is even. -/
theorem value_nearest (negative : Bool) (num : ℕ) (hden : 0 < den)
    (hy : y ≠ .nan) :
    ((signed negative (.nearest num den)).value * den -
      withSign negative num).natAbs ≤
        (y.value * den - withSign negative num).natAbs ∧
    (y.value ≠ (signed negative (.nearest num den)).value →
      ((signed negative (.nearest num den)).value * den -
        withSign negative num).natAbs =
          (y.value * den - withSign negative num).natAbs →
      Even (Magnitude.nearest num den).rank) := by
  cases y with
  | nan => exact absurd rfl hy
  | signed s m =>
      have hclosest := Magnitude.nearest_closest num hden m
      have heven := Magnitude.even_rank_nearest num hden (m := m)
      simp only [value_signed, withSign_mul, natAbs_withSign_sub]
      by_cases hs : s = negative
      · subst hs
        rw [natAbs_withSign_sub]
        refine ⟨hclosest, fun hne => heven ?_⟩
        rintro rfl
        exact hne rfl
      · -- Zero is at least as near as what is on the other side of it.
        have hzero := Magnitude.nearest_closest num hden .zero
        rw [Magnitude.units_zero, Nat.zero_mul] at hzero
        rw [natAbs_withSign_sub_of_ne hs]
        refine ⟨by omega, fun hne htie => heven ?_ (by omega)⟩
        rintro rfl
        have hnone : (Magnitude.nearest num den).units = 0 := by
          refine (Nat.mul_eq_zero.1 ?_).resolve_right hden.ne'
          omega
        rw [hnone] at hne
        refine hne ?_
        cases s <;> cases negative <;> rfl

theorem isRounded_signed_nearest (negative : Bool) (num : ℕ) (hden : 0 < den) :
    (signed negative (.nearest num den)).IsRounded
      (withSign negative num / (den * unitsPerOne)) := by
  have hpos : (0 : ℚ) < den * unitsPerOne :=
    mul_pos (Nat.cast_pos.2 hden) (Nat.cast_pos.2 unitsPerOne_pos)
  refine ⟨negative, _, rfl, fun y hy => ?_⟩
  obtain ⟨hle, heven⟩ := value_nearest negative num hden hy
  rw [abs_exact_sub _ _ hden, abs_exact_sub _ _ hden,
    div_le_div_iff_of_pos_right hpos, Nat.cast_le, div_left_inj' hpos.ne',
    Nat.cast_inj, ne_eq, exact_eq_iff]
  exact ⟨hle, heven⟩

/-- The double of a quotient is that quotient, rounded. -/
theorem isRounded_ofQuotient (negative : Bool) (num : ℕ) (hden : 0 < den) :
    (ofQuotient negative num den).IsRounded (withSign negative num / den) := by
  have hunits : (unitsPerOne : ℚ) ≠ 0 := Nat.cast_ne_zero.2 unitsPerOne_pos.ne'
  have hrounded := isRounded_signed_nearest negative (num * unitsPerOne) hden
  rwa [← withSign_mul, Int.cast_mul, Int.cast_natCast,
    mul_div_mul_right _ _ hunits] at hrounded

end Double

end BenchReport
