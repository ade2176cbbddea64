import BenchReport.Double.Basic
import Mathlib.Algebra.Group.Nat.Even
import Mathlib.Order.Monotone.Basic
import Mathlib.Tactic.Ring

/-!
# Rounding finds the nearest magnitude

The magnitudes are an increasing enumeration of sizes, so a size lies between
two neighbours, and everything that rounding has to do is to compare it with
the middle of the two. `rankBelow` is shown to find the lower one: a rank is
the number of its binade and a place in it, the size of the next rank is one
step of that binade larger, and the binade of a size is read off its logarithm.

From there on no proof looks into a binade. Rounding keeps every magnitude that
is already one (`nearestRank_exact`), depends on a quotient and not on how it is
written (`nearestRank_eq_of_ratio`), and goes to a magnitude that no other one
is nearer than (`nearest_closest`), and to the even one of two that are equally
near (`even_rank_nearest`).
-/

namespace BenchReport

theorem binadeSize_pos : 0 < binadeSize := by decide

theorem unitsPerOne_pos : 0 < unitsPerOne := by decide +kernel

namespace Magnitude

theorem eq_of_rank_eq {m n : Magnitude} (h : m.rank = n.rank) : m = n := by
  cases m
  cases n
  cases h
  rfl

theorem eq_infinity_of_not_isFinite {m : Magnitude} (h : ¬ m.isFinite) :
    m = .infinity := by
  have hle := m.rank_le
  have hge : infinityRank ≤ m.rank := by simpa [isFinite] using h
  exact eq_of_rank_eq (Nat.le_antisymm hle hge)

/-! ## Binades -/

theorem unitsAt_binade {d s : Nat} (hlow : binadeSize ≤ s ∨ d = 0)
    (hhigh : s ≤ 2 * binadeSize) :
    unitsAt (d * binadeSize + s) = s * 2 ^ d := by
  have hpos := binadeSize_pos
  have hdiv : (d * binadeSize + s) / binadeSize = d + s / binadeSize := by
    rw [Nat.add_comm, Nat.add_mul_div_right _ _ hpos, Nat.add_comm]
  rw [unitsAt, hdiv, Nat.pow_eq]
  rcases Nat.lt_or_ge s binadeSize with hs | hs
  · obtain rfl : d = 0 := by omega
    rw [Nat.div_eq_of_lt hs]
    simp
  · rcases Nat.lt_or_ge s (2 * binadeSize) with hs2 | hs2
    · rw [show s / binadeSize = 1 from Nat.div_eq_of_lt_le
        (by omega) (by omega), Nat.add_sub_cancel, Nat.add_sub_cancel_left]
    · obtain rfl : s = 2 * binadeSize := by omega
      rw [Nat.mul_div_cancel _ hpos, show d + 2 - 1 = d + 1 by omega,
        Nat.add_mul,
        show d * binadeSize + 2 * binadeSize - (d * binadeSize + 1 * binadeSize)
          = binadeSize by omega]
      ring

/-- Every rank is a place in a binade, and one more place is still in reach of
`unitsAt_binade`. -/
theorem exists_binade (rank : Nat) :
    ∃ d s, rank = d * binadeSize + s ∧ (binadeSize ≤ s ∨ d = 0) ∧
      s < 2 * binadeSize := by
  have hpos := binadeSize_pos
  have hmod := Nat.div_add_mod' rank binadeSize
  have hlt := Nat.mod_lt rank hpos
  rcases Nat.eq_zero_or_pos (rank / binadeSize) with h | h
  · rw [h] at hmod
    exact ⟨0, rank, by omega, .inr rfl, by omega⟩
  · obtain ⟨k, hk⟩ : ∃ k, rank / binadeSize = k + 1 :=
      ⟨_, (Nat.succ_pred h.ne').symm⟩
    rw [hk, Nat.add_mul] at hmod
    exact ⟨k, rank % binadeSize + binadeSize, by omega,
      .inl (by omega), by omega⟩

theorem unitsAt_lt_succ (rank : Nat) : unitsAt rank < unitsAt (rank + 1) := by
  obtain ⟨d, s, rfl, hlow, hhigh⟩ := exists_binade rank
  rw [unitsAt_binade hlow hhigh.le, Nat.add_assoc,
    unitsAt_binade (hlow.imp_left Nat.le_succ_of_le) hhigh]
  exact Nat.mul_lt_mul_of_pos_right (Nat.lt_succ_self s) (Nat.two_pow_pos d)

theorem unitsAt_strictMono : StrictMono unitsAt :=
  strictMono_nat_of_lt_succ unitsAt_lt_succ

@[simp]
theorem unitsAt_zero : unitsAt 0 = 0 := by decide

/-! ## The neighbours of a size -/

theorem rankBelow_eq (n : Nat) :
    rankBelow n = (n.log2 - 52) * binadeSize + n / 2 ^ (n.log2 - 52) := by
  rw [rankBelow, Nat.pow_eq]

theorem rankBelow_place (n : Nat) :
    (binadeSize ≤ n / 2 ^ (n.log2 - 52) ∨ n.log2 - 52 = 0) ∧
      n / 2 ^ (n.log2 - 52) < 2 * binadeSize := by
  have hsize : binadeSize = 2 ^ 52 := Nat.pow_eq
  constructor
  · rcases Nat.le_total n.log2 52 with h | h
    · exact .inr (by omega)
    · have hne : n ≠ 0 := by rintro rfl; simp at h
      left
      rw [Nat.le_div_iff_mul_le (Nat.two_pow_pos _), hsize, ← Nat.pow_add,
        show 52 + (n.log2 - 52) = n.log2 by omega]
      exact Nat.log2_self_le hne
  · rw [Nat.div_lt_iff_lt_mul (Nat.two_pow_pos _), hsize, ← Nat.pow_succ',
      ← Nat.pow_add]
    exact Nat.lt_of_lt_of_le Nat.lt_log2_self
      (Nat.pow_le_pow_right (by decide) (by omega))

theorem unitsAt_rankBelow (n : Nat) :
    unitsAt (rankBelow n) = n / 2 ^ (n.log2 - 52) * 2 ^ (n.log2 - 52) := by
  rw [rankBelow_eq, unitsAt_binade (rankBelow_place n).1
    (rankBelow_place n).2.le]

theorem unitsAt_rankBelow_le (n : Nat) : unitsAt (rankBelow n) ≤ n := by
  rw [unitsAt_rankBelow]
  exact Nat.div_mul_le_self n _

theorem lt_unitsAt_rankBelow_succ (n : Nat) :
    n < unitsAt (rankBelow n + 1) := by
  obtain ⟨hlow, hhigh⟩ := rankBelow_place n
  rw [rankBelow_eq, Nat.add_assoc,
    unitsAt_binade (hlow.imp_left Nat.le_succ_of_le) hhigh]
  exact (Nat.div_lt_iff_lt_mul (Nat.two_pow_pos _)).1 (Nat.lt_succ_self _)

theorem rankBelow_unitsAt (rank : Nat) : rankBelow (unitsAt rank) = rank := by
  have hle :=
    unitsAt_strictMono.le_iff_le.1 (unitsAt_rankBelow_le (unitsAt rank))
  have hlt :=
    unitsAt_strictMono.lt_iff_lt.1 (lt_unitsAt_rankBelow_succ (unitsAt rank))
  omega

/-- What has at most 53 binary digits before its zeros is the size of a rank. -/
theorem unitsAt_rankBelow_mul_pow {n : Nat} (k : Nat) (hn : n < 2 ^ 53) :
    unitsAt (rankBelow (n * 2 ^ k)) = n * 2 ^ k := by
  rw [unitsAt_rankBelow]
  refine Nat.div_mul_cancel (Nat.dvd_mul_left_of_dvd (Nat.pow_dvd_pow 2 ?_) n)
  rcases Nat.eq_zero_or_pos n with rfl | hpos
  · simp
  · have hlog : (n * 2 ^ k).log2 < 53 + k := by
      rw [Nat.log2_lt (Nat.mul_pos hpos (Nat.two_pow_pos k)).ne', Nat.pow_add]
      exact Nat.mul_lt_mul_of_pos_right hn (Nat.two_pow_pos k)
    omega

/-! ## The nearer neighbour -/

variable {num den : Nat}

theorem unitsAt_rankBelow_mul_le (num den : Nat) :
    unitsAt (rankBelow (num / den)) * den ≤ num :=
  (Nat.mul_le_mul_right den (unitsAt_rankBelow_le _)).trans
    (Nat.div_mul_le_self num den)

theorem lt_unitsAt_rankBelow_succ_mul (num : Nat) (hden : 0 < den) :
    num < unitsAt (rankBelow (num / den) + 1) * den :=
  (Nat.div_lt_iff_lt_mul hden).1 (lt_unitsAt_rankBelow_succ _)

theorem nearestRank_exact (rank : Nat) (hden : 0 < den) :
    nearestRank (unitsAt rank * den) den = rank := by
  have hlt := Nat.mul_lt_mul_of_pos_right (unitsAt_lt_succ rank) hden
  simp only [nearestRank]
  rw [Nat.mul_div_cancel _ hden, rankBelow_unitsAt,
    if_pos (by rw [Nat.add_mul]; omega)]

theorem nearestRank_mul_mul {k : Nat} (hk : 0 < k) :
    nearestRank (num * k) (den * k) = nearestRank num den := by
  simp only [nearestRank]
  rw [Nat.mul_div_mul_right _ _ hk, ← Nat.mul_assoc, ← Nat.mul_assoc]
  simp only [Nat.mul_lt_mul_right hk]

theorem nearestRank_eq_of_ratio {num' den' : Nat} (hden : 0 < den)
    (hden' : 0 < den') (h : num * den' = num' * den) :
    nearestRank num den = nearestRank num' den' := by
  rw [← nearestRank_mul_mul hden', h, Nat.mul_comm den,
    nearestRank_mul_mul hden]

theorem nearestRank_closest (num : Nat) (hden : 0 < den) (rank : Nat) :
    ((unitsAt (nearestRank num den) * den : Nat) - num : Int).natAbs ≤
      ((unitsAt rank * den : Nat) - num : Int).natAbs := by
  have hbelow := unitsAt_rankBelow_mul_le num den
  have habove := lt_unitsAt_rankBelow_succ_mul num hden
  have hrank : unitsAt rank * den ≤ unitsAt (rankBelow (num / den)) * den ∨
      unitsAt (rankBelow (num / den) + 1) * den ≤ unitsAt rank * den := by
    rcases Nat.lt_or_ge (rankBelow (num / den)) rank with h | h
    · exact .inr (Nat.mul_le_mul_right _ (unitsAt_strictMono.monotone h))
    · exact .inl (Nat.mul_le_mul_right _ (unitsAt_strictMono.monotone h))
  simp only [nearestRank, Nat.add_mul]
  split
  · omega
  · split
    · omega
    · rcases Nat.mod_two_eq_zero_or_one (rankBelow (num / den)) with h | h
      · rw [h, Nat.add_zero]
        omega
      · rw [h]
        omega

/-- Only the other neighbour can be as near as the nearest rank, which is the
even one of the two then. -/
theorem even_nearestRank (num : Nat) (hden : 0 < den) {rank : Nat}
    (hne : rank ≠ nearestRank num den)
    (htie : ((unitsAt (nearestRank num den) * den : Nat) - num : Int).natAbs =
      ((unitsAt rank * den : Nat) - num : Int).natAbs) :
    Even (nearestRank num den) := by
  have hbelow := unitsAt_rankBelow_mul_le num den
  have habove := lt_unitsAt_rankBelow_succ_mul num hden
  have hrank : unitsAt rank * den < unitsAt (rankBelow (num / den)) * den ∨
      rank = rankBelow (num / den) ∨ rank = rankBelow (num / den) + 1 ∨
      unitsAt (rankBelow (num / den) + 1) * den < unitsAt rank * den := by
    rcases Nat.lt_trichotomy rank (rankBelow (num / den)) with h | h | h
    · exact .inl (Nat.mul_lt_mul_of_pos_right (unitsAt_strictMono h) hden)
    · exact .inr (.inl h)
    · rcases Nat.eq_or_lt_of_le (Nat.succ_le_of_lt h) with h | h
      · exact .inr (.inr (.inl h.symm))
      · exact .inr (.inr (.inr
          (Nat.mul_lt_mul_of_pos_right (unitsAt_strictMono h) hden)))
  simp only [nearestRank, Nat.add_mul] at hne htie ⊢
  split at hne
  · next hlow =>
    rw [if_pos hlow] at htie ⊢
    rcases hrank with h | rfl | rfl | h <;> omega
  · next hlow =>
    rw [if_neg hlow] at htie ⊢
    split at hne
    · next hhigh =>
      rw [if_pos hhigh] at htie ⊢
      rcases hrank with h | rfl | rfl | h <;> omega
    · next hhigh =>
      rw [if_neg hhigh]
      exact Nat.even_iff.2 (by omega)

/-- Every magnitude is as far from the quotient as the nearest one, or farther,
where infinity stands at the end of the last binade. -/
theorem nearest_closest (num : Nat) (hden : 0 < den) (m : Magnitude) :
    (((nearest num den).units * den : Nat) - num : Int).natAbs ≤
      ((m.units * den : Nat) - num : Int).natAbs := by
  have hclosest := nearestRank_closest num hden m.rank
  have hm := Nat.mul_le_mul_right den (unitsAt_strictMono.monotone m.rank_le)
  simp only [units, nearest]
  rcases Nat.le_total (nearestRank num den) infinityRank with h | h
  · rwa [Nat.min_eq_left h]
  · rw [Nat.min_eq_right h]
    have hn := Nat.mul_le_mul_right den (unitsAt_strictMono.monotone h)
    omega

/-- A nearest magnitude is the even one of two. -/
theorem even_rank_nearest (num : Nat) (hden : 0 < den) {m : Magnitude}
    (hne : m ≠ nearest num den)
    (htie : (((nearest num den).units * den : Nat) - num : Int).natAbs =
      ((m.units * den : Nat) - num : Int).natAbs) :
    Even (nearest num den).rank := by
  rcases Nat.lt_or_ge infinityRank (nearestRank num den) with h | h
  · have hinfinity : (nearest num den).rank = infinityRank :=
      Nat.min_eq_right h.le
    rw [hinfinity]
    decide
  · have hrank : (nearest num den).rank = nearestRank num den :=
      Nat.min_eq_left h
    rw [units, units, hrank] at htie
    rw [hrank]
    refine even_nearestRank num hden (fun heq => hne (eq_of_rank_eq ?_)) htie
    rw [heq, hrank]

theorem nearest_exact (m : Magnitude) {den : Nat} (hden : 0 < den) :
    nearest (m.units * den) den = m := by
  obtain ⟨rank, hrank⟩ := m
  simp only [nearest, units, nearestRank_exact rank hden, Nat.min_eq_left hrank]

theorem nearest_eq_of_ratio {num' den' : Nat} (hden : 0 < den)
    (hden' : 0 < den') (h : num * den' = num' * den) :
    nearest num den = nearest num' den' := by
  rw [nearest, nearest]
  simp only [nearestRank_eq_of_ratio hden hden' h]

end Magnitude

namespace Double

/-- Whether the double is a number and none is nearer to a natural number. -/
def IsNearest (x : Double) (n : Nat) : Prop :=
  ∃ m : Magnitude, x = .signed false m ∧ ∀ other : Magnitude,
    ((m.units : Int) - (n * unitsPerOne : Nat)).natAbs ≤
      ((other.units : Int) - (n * unitsPerOne : Nat)).natAbs

theorem isNearest_ofNat (n : Nat) : (ofNat n).IsNearest n := by
  refine ⟨_, rfl, fun other => ?_⟩
  have hclosest := Magnitude.nearest_closest (n * unitsPerOne) Nat.one_pos other
  rwa [Nat.mul_one, Nat.mul_one] at hclosest

end Double

end BenchReport
