import BenchReport.Numeral.Shortest
import BenchReport.Proofs.Double.Order
import Mathlib.Tactic.Positivity
import Mathlib.Tactic.Ring

/-!
# A decimal is its value

The leading exponent of a decimal only spares work: what it sorts out would be
rounded to zero or to infinity anyway, so every decimal stands for the magnitude
nearest to its value (`toMagnitude_eq_nearest`). With that a decimal is as good
as any other one of the same value. Zeros at the end of the coefficient can be
moved into the exponent, which is all that a written form may change, and that
is why the two ends of a written number need not agree on a coefficient.

The magnitude written out in full reads back, because its quotient is the size
itself. So the search for a shorter decimal cannot go wrong: what it finds was
read before it was taken, and what it falls back on is exact.
-/

namespace BenchReport

/-! ## Counting digits -/

theorem toDigits_mul_pow {n : Nat} (hn : 0 < n) (j : Nat) :
    Nat.toDigits 10 (n * 10 ^ j) = Nat.toDigits 10 n ++
      List.replicate j '0' := by
  induction j with
  | zero => simp
  | succ j ih =>
      rw [show n * 10 ^ (j + 1) = 10 * (n * 10 ^ j) + 0 by ring,
        ← Nat.toDigits_append_toDigits (by decide) (by positivity) (by decide),
        ih, List.append_assoc, List.replicate_succ']
      rfl

theorem digitCount_mul_pow {n : Nat} (hn : 0 < n) (j : Nat) :
    digitCount (n * 10 ^ j) = digitCount n + j := by
  rw [digitCount, toDigits_mul_pow hn, List.length_append,
    List.length_replicate, digitCount]

theorem digitCount_pos (n : Nat) : 0 < digitCount n :=
  Nat.length_toDigits_pos

theorem digitCount_le_iff {n k : Nat} (hk : 0 < k) :
    digitCount n ≤ k ↔ n < 10 ^ k :=
  Nat.length_toDigits_le_iff (by decide) hk

theorem lt_pow_digitCount (n : Nat) : n < 10 ^ digitCount n :=
  (digitCount_le_iff (digitCount_pos n)).1 (Nat.le_refl _)

theorem pow_le_of_lt_digitCount {n k : Nat} (hn : 0 < n)
    (h : k < digitCount n) :
    10 ^ k ≤ n := by
  rcases Nat.eq_zero_or_pos k with rfl | hk
  · exact hn
  · rw [← Nat.not_lt, ← digitCount_le_iff hk]
    omega

namespace Decimal

variable {d : Decimal}

/-! ## Rounding a decimal -/

theorem mul_pow_lt_of_leadingExponent_lt {k : Nat}
    (h : d.leadingExponent < -k) :
    d.coefficient * 10 ^ d.exponent.toNat * 10 ^ k <
      10 ^ (-d.exponent).toNat := by
  rw [leadingExponent] at h
  have hpos := digitCount_pos d.coefficient
  have hexp : digitCount d.coefficient + k ≤ (-d.exponent).toNat := by omega
  rw [show d.exponent.toNat = 0 by omega, Nat.pow_zero, Nat.mul_one]
  calc d.coefficient * 10 ^ k
      < 10 ^ digitCount d.coefficient * 10 ^ k :=
        Nat.mul_lt_mul_of_pos_right (lt_pow_digitCount _) (by positivity)
    _ = 10 ^ (digitCount d.coefficient + k) := (Nat.pow_add ..).symm
    _ ≤ 10 ^ (-d.exponent).toNat := Nat.pow_le_pow_right (by decide) hexp

theorem pow_mul_le_of_le_leadingExponent {k : Nat} (hpos : 0 < d.coefficient)
    (h : k ≤ d.leadingExponent) :
    10 ^ k * 10 ^ (-d.exponent).toNat ≤ d.coefficient * 10 ^
      d.exponent.toNat := by
  rw [leadingExponent] at h
  have hcount := digitCount_pos d.coefficient
  have hexp : k + (-d.exponent).toNat ≤ digitCount d.coefficient - 1 +
      d.exponent.toNat := by omega
  calc 10 ^ k * 10 ^ (-d.exponent).toNat
      = 10 ^ (k + (-d.exponent).toNat) := (Nat.pow_add ..).symm
    _ ≤ 10 ^ (digitCount d.coefficient - 1 + d.exponent.toNat) :=
        Nat.pow_le_pow_right (by decide) hexp
    _ = 10 ^ (digitCount d.coefficient - 1) * 10 ^ d.exponent.toNat :=
      Nat.pow_add ..
    _ ≤ d.coefficient * 10 ^ d.exponent.toNat :=
        Nat.mul_le_mul_right _ (pow_le_of_lt_digitCount hpos (by omega))

/-- Every decimal stands for the magnitude nearest to its value. -/
theorem toMagnitude_eq_nearest (d : Decimal) :
    d.toMagnitude =
      .nearest (d.coefficient * 10 ^ d.exponent.toNat * unitsPerOne)
        (10 ^ (-d.exponent).toNat) := by
  have hden : 0 < 10 ^ (-d.exponent).toNat := Nat.pow_pos (by decide)
  rw [toMagnitude]
  split
  · next hsmall =>
      refine (Magnitude.nearest_eq_zero hden ?_).symm
      rw [Bool.or_eq_true, decide_eq_true_eq, decide_eq_true_eq] at hsmall
      rcases hsmall with hzero | hlow
      · rwa [hzero, Nat.zero_mul, Nat.zero_mul, Nat.mul_zero]
      · have hunits : 2 * unitsPerOne ≤ 10 ^ 324 := by decide +kernel
        calc 2 * (d.coefficient * 10 ^ d.exponent.toNat * unitsPerOne)
            = d.coefficient * 10 ^ d.exponent.toNat * (2 * unitsPerOne) := by
              ring
          _ ≤ d.coefficient * 10 ^ d.exponent.toNat * 10 ^ 324 :=
            Nat.mul_le_mul_left _ hunits
          _ < 10 ^ (-d.exponent).toNat := mul_pow_lt_of_leadingExponent_lt hlow
  · next hlarge =>
      rw [Bool.or_eq_true, decide_eq_true_eq, not_or] at hlarge
      split
      · next hhigh =>
          refine (Magnitude.nearest_eq_infinity hden ?_).symm
          have hunits : Magnitude.infinity.units ≤ 10 ^ 309 * unitsPerOne := by
            decide +kernel
          calc Magnitude.infinity.units * 10 ^ (-d.exponent).toNat
              ≤ 10 ^ 309 * unitsPerOne * 10 ^ (-d.exponent).toNat :=
                Nat.mul_le_mul_right _ hunits
            _ = 10 ^ 309 * 10 ^ (-d.exponent).toNat * unitsPerOne :=
              Nat.mul_right_comm ..
            _ ≤ d.coefficient * 10 ^ d.exponent.toNat * unitsPerOne :=
                Nat.mul_le_mul_right _
                  (pow_mul_le_of_le_leadingExponent
                    (Nat.pos_of_ne_zero hlarge.1) hhigh)
      · rw [Nat.pow_eq, Nat.pow_eq]

/-! ## Moving zeros into the exponent -/

theorem leadingExponent_mul_pow {c : Nat} (hc : 0 < c) (j : Nat) (e : Int) :
    (Decimal.mk (c * 10 ^ j) e).leadingExponent =
      (Decimal.mk c (e + j)).leadingExponent := by
  simp only [leadingExponent, digitCount_mul_pow hc]
  omega

theorem toMagnitude_mul_pow (c j : Nat) (e : Int) :
    (Decimal.mk (c * 10 ^ j) e).toMagnitude =
      (Decimal.mk c (e + j)).toMagnitude := by
  have hexp : j + e.toNat + (-(e + j)).toNat = (e + j).toNat + (-e).toNat := by
    omega
  rw [toMagnitude_eq_nearest, toMagnitude_eq_nearest]
  refine Magnitude.nearest_eq_of_ratio (Nat.pow_pos (by decide))
    (Nat.pow_pos (by decide)) ?_
  calc c * 10 ^ j * 10 ^ e.toNat * unitsPerOne * 10 ^ (-(e + j)).toNat
      = c * unitsPerOne * 10 ^ (j + e.toNat + (-(e + j)).toNat) := by ring
    _ = c * 10 ^ (e + j).toNat * unitsPerOne * 10 ^ (-e).toNat := by
      rw [hexp]; ring

end Decimal

namespace Magnitude

/-! ## The shortest decimal reads back -/

theorem toMagnitude_exactDecimal (m : Magnitude) :
    m.exactDecimal.toMagnitude = m := by
  have hden : 0 < Nat.pow 10 1074 := by decide +kernel
  have hpow : Nat.pow 5 1074 * unitsPerOne = Nat.pow 10 1074 := by
    decide +kernel
  have hcoefficient : m.exactDecimal.coefficient = m.units * Nat.pow 5 1074 :=
    rfl
  have hexponent : m.exactDecimal.exponent.toNat = 0 := rfl
  have hshift : (-m.exactDecimal.exponent).toNat = 1074 := rfl
  have hscale : 10 ^ 1074 = Nat.pow 10 1074 := by decide +kernel
  rw [Decimal.toMagnitude_eq_nearest, hcoefficient, hexponent, hshift, hscale,
    Nat.pow_zero, Nat.mul_one, Nat.mul_assoc, hpow]
  exact nearest_exact m hden

/-- What is found on a grid is on it and reads back. -/
theorem onGrid?_sound {tie : Tie} {m : Magnitude} {exponent : Int} {d : Decimal}
    (h : m.onGrid? tie exponent = some d) :
    d.exponent = exponent ∧ d.toMagnitude = m := by
  unfold onGrid? at h
  generalize unitsPerOne * Nat.pow 10 exponent.toNat = den at h
  generalize m.units * Nat.pow 10 (-exponent).toNat = num at h
  dsimp only at h
  split at h
  · next hbelow =>
      split at h
      · next habove =>
          split at h <;> cases h
          · exact ⟨rfl, hbelow⟩
          · exact ⟨rfl, habove⟩
          · exact ⟨rfl, habove⟩
          · split
            · exact ⟨rfl, hbelow⟩
            · exact ⟨rfl, habove⟩
      · cases h
        exact ⟨rfl, hbelow⟩
  · split at h
    · next habove =>
        cases h
        exact ⟨rfl, habove⟩
    · cases h

theorem toMagnitude_shortest (tie : Tie) (m : Magnitude) :
    (m.shortest tie).toMagnitude = m := by
  rw [shortest]
  cases htried : (List.range 17).findSome? fun (digits : Nat) =>
      m.onGrid? tie (m.leadingExponent - digits) with
  | none => exact toMagnitude_exactDecimal m
  | some d =>
      obtain ⟨digits, -, hgrid⟩ := List.exists_of_findSome?_eq_some htried
      exact (onGrid?_sound hgrid).2

theorem coefficient_shortest_pos (tie : Tie) {m : Magnitude}
    (hrank : m.rank ≠ 0) :
    0 < (m.shortest tie).coefficient := by
  refine Nat.pos_of_ne_zero fun hzero => hrank ?_
  rw [← toMagnitude_shortest tie m, Decimal.toMagnitude, hzero]
  rfl

end Magnitude

end BenchReport
