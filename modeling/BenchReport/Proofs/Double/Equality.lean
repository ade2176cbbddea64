import BenchReport.Proofs.Double.Extremes
import BenchReport.Proofs.Double.Sum

/-!
# Doubles that are one number

Two doubles are one number if each is at most the other. Comparison holds the
two zeros equal, so apart from them such doubles are one and the same
(`Equals.eq_or_zero`). A sum goes by values and keeps numbers equal, also where
it becomes infinite.

What is picked from a list stands in its relation to all numbers of the list and
is one of them. So where a list has all numbers of another, the pick from it
stands in the relation to the other pick (`Picks.foldl_of_subset`), and the
order of the lists does not matter. What is no number is never picked, and a
list without it gives the very same double (`Picks.foldl_filter`).
-/

namespace BenchReport

namespace Double

variable {a b c : Double}

/-! ## Equal numbers -/

/-- Whether two doubles are one number, which may be zeros of two signs. -/
def Equals (a b : Double) : Prop :=
  a ≤ b ∧ b ≤ a

theorem equals_iff : a.Equals b ↔ a ≠ .nan ∧ b ≠ .nan ∧ a.value = b.value := by
  rw [Equals, Double.le_iff, Double.le_iff]
  constructor
  · intro ⟨⟨ha, hb, hle⟩, _, _, hge⟩
    exact ⟨ha, hb, Int.le_antisymm hle hge⟩
  · intro ⟨ha, hb, hvalue⟩
    exact ⟨⟨ha, hb, hvalue.le⟩, hb, ha, hvalue.ge⟩

theorem Equals.refl (ha : a ≠ .nan) : a.Equals a :=
  ⟨Double.le_refl ha, Double.le_refl ha⟩

/-- Equal numbers are one double, or both are zeros. -/
theorem Equals.eq_or_zero (h : a.Equals b) :
    a = b ∨ a.abs = zero ∧ b.abs = zero := by
  obtain ⟨ha, hb, hvalue⟩ := equals_iff.1 h
  cases a with
  | nan => exact absurd rfl ha
  | signed s m =>
      cases b with
      | nan => exact absurd rfl hb
      | signed t n =>
          by_cases hzero : (signed s m).value = 0
          · have hother : (signed t n).value = 0 := hvalue.symm.trans hzero
            rw [eq_zero_of_value_eq_zero hzero, eq_zero_of_value_eq_zero hother]
            exact .inr ⟨rfl, rfl⟩
          · have hother : (signed t n).value ≠ 0 :=
              fun h => hzero (hvalue.trans h)
            refine .inl ?_
            rw [← ofUnits_value hzero, hvalue, ofUnits_value hother]

theorem Equals.abs_eq (h : a.Equals b) : a.abs = b.abs := by
  rcases h.eq_or_zero with rfl | ⟨ha, hb⟩
  · rfl
  · rw [ha, hb]

theorem Equals.isFinite_eq (h : a.Equals b) : a.isFinite = b.isFinite := by
  obtain ⟨ha, hb, hvalue⟩ := equals_iff.1 h
  rw [Bool.eq_iff_iff, isFinite_iff_value, isFinite_iff_value, hvalue]
  exact and_congr_left fun _ => iff_of_true ha hb

/-- A number added to equal ones gives equal sums. -/
theorem Equals.add_right (h : a.Equals b) (ha : a.isFinite = true)
    (hc : c ≠ .nan) :
    (a + c).Equals (b + c) := by
  have hb : b.isFinite = true := h.isFinite_eq.symm.trans ha
  by_cases hinfinite : c.IsInfinite
  · rcases hinfinite with rfl | rfl
    · rw [add_infinity ha, add_infinity hb]
      exact .refl nofun
    · rw [add_negativeInfinity ha, add_negativeInfinity hb]
      exact .refl nofun
  · have hfinite := isFinite_of_not_isInfinite hc hinfinite
    refine equals_iff.2 ⟨add_ne_nan ha hc, add_ne_nan hb hc, ?_⟩
    rw [value_add ha hfinite, value_add hb hfinite, (equals_iff.1 h).2.2]

/-! ## Picking the same -/

variable {r : Double → Double → Prop} {pick : Double → Double → Double}

theorem Picks.foldl_filter (h : Picks r pick) (values : List Double)
    (first : Double) :
    (values.filter (· ≠ .nan)).foldl pick first = values.foldl pick first := by
  rw [List.foldl_filter]
  congr 1
  funext picked v
  by_cases hv : v = .nan
  · rw [hv, h.nan]
    rfl
  · rw [if_pos (decide_eq_true hv)]

/-- What is picked from all numbers of a list and some more stands in the
relation to what is picked from the list. -/
theorem Picks.foldl_of_subset (h : Picks r pick)
    (hrefl : ∀ {a}, a ≠ .nan → r a a)
    (htrans : ∀ {a b c}, r a b → r b c → r a c) {values others : List Double}
    {first : Double} (hfirst : first ≠ .nan)
    (hsubset : ∀ v ∈ others, v ≠ .nan → v ∈ values) :
    r (values.foldl pick first) (others.foldl pick first) := by
  obtain ⟨-, hstart, hall, -⟩ := h.foldl hrefl htrans values hfirst
  obtain ⟨hnumber, -, -, heq | hmem⟩ := h.foldl hrefl htrans others hfirst
  · rw [heq]
    exact hstart
  · exact hall _ (hsubset _ hmem hnumber) hnumber

theorem Picks.foldl_same (h : Picks r pick) (hrefl : ∀ {a}, a ≠ .nan → r a a)
    (htrans : ∀ {a b c}, r a b → r b c → r a c) {values others : List Double}
    {first : Double} (hfirst : first ≠ .nan)
    (hsame : ∀ v, v ≠ .nan → (v ∈ values ↔ v ∈ others)) :
    r (values.foldl pick first) (others.foldl pick first) ∧
      r (others.foldl pick first) (values.foldl pick first) :=
  ⟨h.foldl_of_subset hrefl htrans hfirst fun v hv hnumber =>
    (hsame v hnumber).2 hv, h.foldl_of_subset hrefl htrans hfirst
      fun v hv hnumber => (hsame v hnumber).1 hv⟩

end Double

end BenchReport
