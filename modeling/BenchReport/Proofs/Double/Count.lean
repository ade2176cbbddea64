import BenchReport.Double.Arithmetic
import BenchReport.Proofs.Double.Rounding

/-!
# Counts as doubles

Every count of 64 bits has a finite double next to it, and only zero is rounded
to zero. Counts of less than 53 bits are doubles themselves, so their order is
that of the counts.
-/

namespace BenchReport

namespace Magnitude

theorem rankBelow_le_nearestRank (num den : Nat) :
    rankBelow (num / den) ≤ nearestRank num den := by
  rw [nearestRank]
  split
  · exact Nat.le_refl _
  · split
    · exact Nat.le_succ _
    · exact Nat.le_add_right ..

theorem nearestRank_le_succ (num den : Nat) :
    nearestRank num den ≤ rankBelow (num / den) + 1 := by
  rw [nearestRank]
  split
  · exact Nat.le_succ _
  · split
    · exact Nat.le_refl _
    · have := Nat.mod_lt (rankBelow (num / den)) Nat.two_pos
      omega

theorem rankBelow_pos {n : Nat} (hn : 0 < n) : 0 < rankBelow n := by
  refine Nat.pos_of_ne_zero fun hzero => ?_
  have hlt := lt_unitsAt_rankBelow_succ n
  rw [hzero] at hlt
  have hone : unitsAt (0 + 1) = 1 := by decide
  omega

/-- A size that is much less than infinity does not even round up to it. -/
theorem rankBelow_succ_lt {n : Nat} (hn : n < 2 ^ 64) :
    rankBelow (n * unitsPerOne) + 1 < infinityRank := by
  have hle := unitsAt_rankBelow_le (n * unitsPerOne)
  have hsize : n * unitsPerOne < unitsAt (infinityRank - 1) :=
    Nat.lt_of_lt_of_le (Nat.mul_lt_mul_of_pos_right hn unitsPerOne_pos)
      (by decide +kernel)
  have hrank := unitsAt_strictMono.lt_iff_lt.1 (Nat.lt_of_le_of_lt hle hsize)
  omega

end Magnitude

namespace Double

open Magnitude

theorem ofNat_eq (n : Nat) :
    ofNat n = .signed false (.nearest (n * unitsPerOne) 1) := rfl

theorem rank_nearest_lt {n : Nat} (hn : n < 2 ^ 64) :
    nearestRank (n * unitsPerOne) 1 < infinityRank := by
  have hle := nearestRank_le_succ (n * unitsPerOne) 1
  rw [Nat.div_one] at hle
  exact Nat.lt_of_le_of_lt hle (rankBelow_succ_lt hn)

theorem rank_nearest {n : Nat} (hn : n < 2 ^ 64) :
    (Magnitude.nearest (n * unitsPerOne) 1).rank =
      nearestRank (n * unitsPerOne) 1 :=
  Nat.min_eq_left (Nat.le_of_lt (rank_nearest_lt hn))

theorem isFinite_ofNat {n : Nat} (hn : n < 2 ^ 64) :
    (ofNat n).isFinite = true := by
  rw [ofNat_eq]
  show decide ((Magnitude.nearest (n * unitsPerOne) 1).rank < infinityRank) =
      true
  rw [rank_nearest hn]
  exact decide_eq_true (rank_nearest_lt hn)

theorem ofNat_lt_iff {a b : Nat} (ha : a < 2 ^ 64) (hb : b < 2 ^ 64) :
    ofNat a < ofNat b ↔
      nearestRank (a * unitsPerOne) 1 < nearestRank (b * unitsPerOne) 1 := by
  show decide (((Magnitude.nearest (a * unitsPerOne) 1).rank : Int) <
    (Magnitude.nearest (b * unitsPerOne) 1).rank) = true ↔ _
  rw [rank_nearest ha, rank_nearest hb, decide_eq_true_eq, Int.ofNat_lt]

theorem nearestRank_zero : nearestRank 0 1 = 0 := by
  have hexact := nearestRank_exact 0 Nat.one_pos
  rwa [unitsAt_zero, Nat.zero_mul] at hexact

theorem zero_eq : zero = ofNat 0 := by
  have hexact := Magnitude.nearest_exact .zero Nat.one_pos
  have hunits : Magnitude.zero.units * 1 = 0 * unitsPerOne :=
    (Nat.zero_mul unitsPerOne).symm
  rw [ofNat_eq, ← hunits, hexact]
  rfl

theorem zero_lt_ofNat_iff {n : Nat} (hn : n < 2 ^ 64) :
    zero < ofNat n ↔ n ≠ 0 := by
  rw [zero_eq, ofNat_lt_iff (by decide) hn, Nat.zero_mul, nearestRank_zero]
  constructor
  · rintro hlt rfl
    rw [Nat.zero_mul, nearestRank_zero] at hlt
    exact Nat.lt_irrefl 0 hlt
  · intro hne
    have hpos :=
      rankBelow_pos (Nat.mul_pos (Nat.pos_of_ne_zero hne) unitsPerOne_pos)
    have hle := rankBelow_le_nearestRank (n * unitsPerOne) 1
    rw [Nat.div_one] at hle
    exact Nat.lt_of_lt_of_le hpos hle

theorem unitsAt_nearestRank {n : Nat} (hn : n < 2 ^ 53) :
    unitsAt (nearestRank (n * unitsPerOne) 1) = n * unitsPerOne := by
  have hunits : unitsAt (rankBelow (n * unitsPerOne)) = n * unitsPerOne := by
    have hpow : unitsPerOne = Nat.pow 2 1074 := rfl
    rw [hpow, Nat.pow_eq]
    exact unitsAt_rankBelow_mul_pow _ hn
  have hexact := nearestRank_exact (rankBelow (n * unitsPerOne)) Nat.one_pos
  rw [hunits, Nat.mul_one] at hexact
  rw [hexact, hunits]

theorem units_nearest {n : Nat} (hn : n < 2 ^ 53) :
    (Magnitude.nearest (n * unitsPerOne) 1).units = n * unitsPerOne := by
  rw [units, rank_nearest (by omega), unitsAt_nearestRank hn]

theorem ofNat_lt_ofNat {a b : Nat} (hlt : a < b) (hb : b < 2 ^ 53) :
    ofNat a < ofNat b := by
  rw [ofNat_lt_iff (by omega) (by omega), ← unitsAt_strictMono.lt_iff_lt,
    unitsAt_nearestRank (by omega), unitsAt_nearestRank hb]
  exact Nat.mul_lt_mul_of_pos_right hlt unitsPerOne_pos

theorem ofNat_inj {a b : Nat} (ha : a < 2 ^ 53) (hb : b < 2 ^ 53) :
    ofNat a = ofNat b ↔ a = b := by
  refine ⟨fun h => ?_, congrArg ofNat⟩
  rw [ofNat_eq, ofNat_eq, signed.injEq] at h
  have hunits := congrArg units h.2
  rw [units_nearest ha, units_nearest hb] at hunits
  exact Nat.eq_of_mul_eq_mul_right unitsPerOne_pos hunits

end Double

end BenchReport
