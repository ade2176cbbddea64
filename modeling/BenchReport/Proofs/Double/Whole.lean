import BenchReport.Proofs.Double.Count
import BenchReport.Proofs.Double.Exact
import Mathlib.Algebra.Order.Round
import Mathlib.Data.Rat.Floor

/-!
# Doubles rounded to integers

A double is rounded to an integer without a second rounding: up to 2^52 every
integer is a double, and from there on every double is an integer
(`roundedWhole_lt_or_eq`). So there is a double that is exactly the rounded
number (`isWhole_whole`), and taking it for a count of 64 bits can only cut it
off at the ends.
-/

namespace BenchReport

/-- The integer nearest to a number, the one farther from zero if two are
as near. -/
def roundAway (q : ℚ) : ℤ :=
  if q < 0 then -round (-q) else round q

namespace Magnitude

variable {m : Magnitude}

/-- A double that is not below 2^52 is an integer. -/
theorem unitsPerOne_dvd_units (h : 2 ^ 52 * unitsPerOne ≤ m.units) :
    unitsPerOne ∣ m.units := by
  obtain ⟨d, s, hrank, hlow, hhigh⟩ := exists_binade m.rank
  obtain ⟨e, hone⟩ : ∃ e, unitsPerOne = Nat.pow 2 e := ⟨1074, by decide +kernel⟩
  rw [Nat.pow_eq] at hone
  have hsize : 2 * binadeSize = 2 ^ 53 := by decide
  have hunits : m.units = s * 2 ^ d := by
    rw [units, hrank, unitsAt_binade hlow hhigh.le]
  have hexponent : 52 + e < 53 + d := by
    refine (Nat.pow_lt_pow_iff_right (a := 2) (by decide)).1 ?_
    calc 2 ^ (52 + e)
        = 2 ^ 52 * unitsPerOne := by rw [hone, Nat.pow_add]
      _ ≤ s * 2 ^ d := h.trans_eq hunits
      _ < 2 ^ 53 * 2 ^ d :=
        Nat.mul_lt_mul_of_pos_right (hhigh.trans_eq hsize) (Nat.two_pow_pos d)
      _ = 2 ^ (53 + d) := (Nat.pow_add ..).symm
  rw [hunits, hone]
  exact Nat.dvd_mul_left_of_dvd (Nat.pow_dvd_pow 2 (by omega)) s

theorem roundedWhole_bounds (m : Magnitude) :
    2 * (Double.roundedWhole m * unitsPerOne) ≤ 2 * m.units + unitsPerOne ∧
      2 * m.units < 2 * (Double.roundedWhole m * unitsPerOne) +
        unitsPerOne := by
  have hpos : 0 < 2 * unitsPerOne := Nat.mul_pos Nat.two_pos unitsPerOne_pos
  have hle := Nat.div_mul_le_self (2 * m.units + unitsPerOne) (2 * unitsPerOne)
  have hlt := Nat.lt_div_mul_add (a := 2 * m.units + unitsPerOne) hpos
  rw [← Double.roundedWhole, Nat.mul_left_comm] at hle hlt
  omega

/-- A rounded magnitude is small, or it was an integer before. -/
theorem roundedWhole_lt_or_eq (m : Magnitude) :
    Double.roundedWhole m < 2 ^ 53 ∨ Double.roundedWhole m * unitsPerOne =
      m.units := by
  obtain ⟨hle, hlt⟩ := roundedWhole_bounds m
  rcases Nat.lt_or_ge (Double.roundedWhole m) (2 ^ 53) with hsmall | hlarge
  · exact .inl hsmall
  · have hmany := Nat.mul_le_mul_right unitsPerOne hlarge
    obtain ⟨n, hn⟩ := unitsPerOne_dvd_units (m := m) (by omega)
    rw [Nat.mul_comm] at hn
    have hpos := unitsPerOne_pos
    have hbelow : Double.roundedWhole m < n + 1 :=
      Nat.lt_of_mul_lt_mul_right (a := unitsPerOne) (by rw [Nat.add_mul]; omega)
    have habove : n < Double.roundedWhole m + 1 :=
      Nat.lt_of_mul_lt_mul_right (a := unitsPerOne) (by rw [Nat.add_mul]; omega)
    rw [hn, (by omega : Double.roundedWhole m = n)]
    exact .inr rfl

theorem units_nearest_roundedWhole (m : Magnitude) :
    (nearest (Double.roundedWhole m * unitsPerOne) 1).units =
      Double.roundedWhole m * unitsPerOne := by
  rcases roundedWhole_lt_or_eq m with hsmall | hwhole
  · exact Double.units_nearest hsmall
  · have hexact := nearest_exact m Nat.one_pos
    rw [Nat.mul_one] at hexact
    rw [hwhole, hexact]

theorem isFinite_nearest_roundedWhole (hm : m.isFinite = true) :
    (nearest (Double.roundedWhole m * unitsPerOne) 1).isFinite = true := by
  rw [isFinite_iff, units_nearest_roundedWhole]
  rcases roundedWhole_lt_or_eq m with hsmall | hwhole
  · have hroom : 2 ^ 53 * unitsPerOne ≤ infinity.units := by decide +kernel
    exact (Nat.mul_lt_mul_of_pos_right hsmall unitsPerOne_pos).trans_le hroom
  · rw [hwhole]
    exact isFinite_iff.1 hm

theorem round_units_div (m : Magnitude) :
    round ((m.units : ℚ) / unitsPerOne) = Double.roundedWhole m := by
  obtain ⟨hle, hlt⟩ := roundedWhole_bounds m
  have hpos : (0 : ℚ) < unitsPerOne := Nat.cast_pos.2 unitsPerOne_pos
  have hle : (2 * (Double.roundedWhole m * unitsPerOne) : ℚ) ≤
      2 * m.units + unitsPerOne := by
    exact_mod_cast hle
  have hlt : (2 * m.units : ℚ) < 2 * (Double.roundedWhole m * unitsPerOne) +
      unitsPerOne := by
    exact_mod_cast hlt
  rw [round_eq_iff, Set.mem_Ico, le_div_iff₀ hpos, div_lt_iff₀ hpos]
  push_cast
  constructor <;> linarith

end Magnitude

namespace Double

variable {m : Magnitude}

/-- Whether a double is another one rounded to an integer: the nearest one and
of two the one farther from zero, with the sign of the other one. What is no
finite number is not rounded. -/
structure IsWhole (v x : Double) : Prop where
  exact : x.isFinite = true → v.isFinite = true ∧ v.exact = roundAway x.exact
  sign : ∀ s m, x = .signed s m → ∃ n, v = .signed s n
  same : x.isFinite = false → v = x

/-- The double rounded to an integer. -/
def whole : Double → Double
  | .nan => .nan
  | .signed s m => .signed s (.nearest (roundedWhole m * unitsPerOne) 1)

theorem roundAway_exact (s : Bool) (m : Magnitude) :
    roundAway (signed s m).exact = withSign s (roundedWhole m) := by
  have hround := Magnitude.round_units_div m
  have hpos : (0 : ℚ) < unitsPerOne := Nat.cast_pos.2 unitsPerOne_pos
  have hquotient : (0 : ℚ) ≤ (m.units : ℚ) / unitsPerOne :=
    div_nonneg (Nat.cast_nonneg _) hpos.le
  rw [exact, value_signed, roundAway]
  cases s with
  | false =>
      rw [withSign_false, withSign_false, Int.cast_natCast,
        if_neg (not_lt.2 hquotient), hround]
  | true =>
      rw [withSign, if_pos rfl, withSign, if_pos rfl, Int.cast_neg,
        Int.cast_natCast, neg_div, neg_neg, hround]
      split
      · rfl
      · next hzero =>
          have hnone : (m.units : ℚ) / unitsPerOne = 0 := by linarith
          rw [hnone, round_zero] at hround
          rw [hnone, neg_zero, round_zero, ← hround, neg_zero]

theorem exact_whole (s : Bool) (m : Magnitude) :
    (signed s m).whole.exact = withSign s (roundedWhole m) := by
  have hunits : (unitsPerOne : ℚ) ≠ 0 := Nat.cast_ne_zero.2 unitsPerOne_pos.ne'
  rw [exact, whole, value_signed, Magnitude.units_nearest_roundedWhole,
    ← withSign_mul, Int.cast_mul, Int.cast_natCast,
    mul_div_cancel_right₀ _ hunits]

theorem isWhole_whole (x : Double) : x.whole.IsWhole x where
  exact hx := by
    cases x with
    | nan => cases hx
    | signed s m =>
        refine ⟨Magnitude.isFinite_nearest_roundedWhole hx, ?_⟩
        rw [roundAway_exact, exact_whole]
  sign s m hx := by
    rw [hx]
    exact ⟨_, rfl⟩
  same hx := by
    cases x with
    | nan => rfl
    | signed s m =>
        have hm :=
          Magnitude.eq_infinity_of_not_isFinite (Bool.eq_false_iff.1 hx)
        have hnearest :
            Magnitude.nearest (roundedWhole .infinity * unitsPerOne) 1 =
              .infinity := by
          decide +kernel
        rw [hm, whole, hnearest]

/-! ## Counts of 64 bits -/

theorem toNat_toUInt64 (m : Magnitude) :
    (signed false m).toUInt64.toNat = Nat.min (roundedWhole m)
    (2 ^ 64 - 1) := by
  rw [toUInt64]
  exact UInt64.toNat_ofNat_of_lt'
    (Nat.lt_of_le_of_lt (Nat.min_le_right ..) (by decide))

theorem value_whole (m : Magnitude) :
    (signed false m).whole.value = (roundedWhole m * unitsPerOne : ℕ) := by
  rw [whole, value_positive, Magnitude.units_nearest_roundedWhole]

theorem value_size : (ofNat (2 ^ 64)).value = (2 ^ 64 * unitsPerOne : ℕ) := by
  have hunits : (Magnitude.nearest (2 ^ 64 * unitsPerOne) 1).units =
      2 ^ 64 * unitsPerOne := by
    decide +kernel
  rw [ofNat_eq, value_positive, hunits]

theorem exact_size : (ofNat (2 ^ 64)).exact = 2 ^ 64 := by
  have hunits : (unitsPerOne : ℚ) ≠ 0 := Nat.cast_ne_zero.2 unitsPerOne_pos.ne'
  rw [exact, value_size, Int.cast_natCast, Nat.cast_mul,
    mul_div_cancel_right₀ _ hunits]
  norm_num

theorem zero_lt_whole_iff (m : Magnitude) :
    zero < (signed false m).whole ↔ 0 < roundedWhole m := by
  rw [Double.lt_iff, value_whole, zero, value_positive, Magnitude.units_zero,
    Int.ofNat_lt, Nat.mul_pos_iff_of_pos_right unitsPerOne_pos]
  exact ⟨fun h => h.2.2, fun h => ⟨signed_ne_nan _ _, signed_ne_nan _ _, h⟩⟩

theorem whole_lt_size_iff (m : Magnitude) :
    (signed false m).whole < .ofNat (2 ^ 64) ↔ roundedWhole m < 2 ^ 64 := by
  rw [Double.lt_iff, value_whole, value_size, Int.ofNat_lt,
    Nat.mul_lt_mul_right unitsPerOne_pos]
  exact ⟨fun h => h.2.2, fun h => ⟨signed_ne_nan _ _, signed_ne_nan _ _, h⟩⟩

theorem size_le_whole_iff (m : Magnitude) :
    .ofNat (2 ^ 64) ≤ (signed false m).whole ↔ 2 ^ 64 ≤ roundedWhole m := by
  rw [Double.le_iff, value_whole, value_size, Int.ofNat_le,
    Nat.mul_le_mul_right_iff unitsPerOne_pos]
  exact ⟨fun h => h.2.2, fun h => ⟨signed_ne_nan _ _, signed_ne_nan _ _, h⟩⟩

end Double

end BenchReport
