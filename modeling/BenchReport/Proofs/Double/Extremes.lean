import BenchReport.Proofs.Double.Order

/-!
# The least and the greatest of some doubles

The least and the greatest of two doubles are picked in the same way: what is
picked is one of the two, and it stands in a relation to both. So the two folds
over a list are one (`Picks.foldl`): what is picked from a list is in it, or it
is what the fold starts with, and it stands in the relation to all of the list
that are numbers. A fold that starts with an infinity ends with it only if no
number is there or the list has that infinity.
-/

namespace BenchReport

namespace Double

variable {a b : Double}

/-! ## Infinite numbers -/

/-- Whether the double is one of the infinities. -/
def IsInfinite (a : Double) : Prop :=
  a = .infinity ∨ a = .negativeInfinity

theorem isFinite_of_not_isInfinite (hnan : a ≠ .nan) (h : ¬ a.IsInfinite) :
    a.isFinite = true := by
  cases a with
  | nan => exact absurd rfl hnan
  | signed s m =>
      by_contra hfinite
      obtain rfl : m = .infinity :=
        Magnitude.eq_infinity_of_not_isFinite hfinite
      cases s with
      | false => exact h (.inl rfl)
      | true => exact h (.inr rfl)

theorem eq_infinity_of_le (h : infinity ≤ a) : a = .infinity := by
  have hfinite : ¬ a.isFinite = true := fun hfinite => by
    have hlt := (isFinite_iff_value.1 hfinite).2
    have hle := (Double.le_iff.1 h).2.2
    rw [infinity, value_positive] at hle
    omega
  have hne := (Double.le_iff.1 h).2.1
  by_contra hother
  refine hfinite (isFinite_of_not_isInfinite hne ?_)
  rintro (hinfinity | rfl)
  · exact hother hinfinity
  · exact absurd h (by decide)

theorem eq_negativeInfinity_of_le (h : a ≤ negativeInfinity) :
    a = .negativeInfinity := by
  have hfinite : ¬ a.isFinite = true := fun hfinite => by
    have hlt := (isFinite_iff_value.1 hfinite).2
    have hle := (Double.le_iff.1 h).2.2
    rw [negativeInfinity, value_negative] at hle
    omega
  have hne := (Double.le_iff.1 h).1
  by_contra hother
  refine hfinite (isFinite_of_not_isInfinite hne ?_)
  rintro (rfl | hinfinity)
  · exact absurd h (by decide)
  · exact hother hinfinity

/-! ## Picking from a list -/

/-- Whether of two doubles one is picked that stands in a relation to both, and
a number before what is none. -/
structure Picks (r : Double → Double → Prop) (pick : Double → Double → Double) :
    Prop where
  nan : ∀ a, pick a .nan = a
  left : ∀ {a b}, a ≠ .nan → b ≠ .nan → r (pick a b) a
  right : ∀ {a b}, a ≠ .nan → b ≠ .nan → r (pick a b) b
  eq_or_eq : ∀ {a b}, a ≠ .nan → b ≠ .nan → pick a b = a ∨ pick a b = b

theorem min_of_ne_nan (ha : a ≠ .nan) (hb : b ≠ .nan) :
    min a b = if b < a then b else a := by
  rw [min]
  · exact ha
  · exact hb

theorem max_of_ne_nan (ha : a ≠ .nan) (hb : b ≠ .nan) :
    max a b = if a < b then b else a := by
  rw [max]
  · exact ha
  · exact hb

theorem picks_min : Picks (· ≤ ·) min where
  nan a := by cases a <;> rfl
  left ha hb := by
    rw [min_of_ne_nan ha hb]
    split
    · next hlt => exact Double.le_of_lt hlt
    · exact Double.le_refl ha
  right ha hb := by
    rw [min_of_ne_nan ha hb]
    split
    · exact Double.le_refl hb
    · next hlt => exact Double.le_of_not_lt hb ha hlt
  eq_or_eq ha hb := by
    rw [min_of_ne_nan ha hb]
    split
    · exact .inr rfl
    · exact .inl rfl

theorem picks_max : Picks (fun a b => b ≤ a) max where
  nan a := by cases a <;> rfl
  left ha hb := by
    rw [max_of_ne_nan ha hb]
    split
    · next hlt => exact Double.le_of_lt hlt
    · exact Double.le_refl ha
  right ha hb := by
    rw [max_of_ne_nan ha hb]
    split
    · exact Double.le_refl hb
    · next hlt => exact Double.le_of_not_lt ha hb hlt
  eq_or_eq ha hb := by
    rw [max_of_ne_nan ha hb]
    split
    · exact .inr rfl
    · exact .inl rfl

/-- What is picked one after the other stands in the relation to all, and it is
the first one or comes from the list. -/
theorem Picks.foldl {r : Double → Double → Prop}
    {pick : Double → Double → Double} (h : Picks r pick)
    (hrefl : ∀ {a}, a ≠ .nan → r a a)
    (htrans : ∀ {a b c}, r a b → r b c → r a c) (values : List Double)
    {first : Double} (hfirst : first ≠ .nan) :
    values.foldl pick first ≠ .nan ∧ r (values.foldl pick first) first ∧
      (∀ v ∈ values, v ≠ .nan → r (values.foldl pick first) v) ∧
      (values.foldl pick first = first ∨ values.foldl pick first ∈ values) := by
  induction values generalizing first with
  | nil => exact ⟨hfirst, hrefl hfirst, nofun, .inl rfl⟩
  | cons v rest ih =>
      rw [List.foldl_cons]
      by_cases hv : v = .nan
      · subst hv
        rw [h.nan]
        obtain ⟨hne, hleft, hrest, hmem⟩ := ih hfirst
        exact ⟨hne, hleft,
          List.forall_mem_cons.2 ⟨fun hnan => absurd rfl hnan, hrest⟩,
          hmem.imp_right (List.mem_cons_of_mem _)⟩
      · have hpicked : pick first v ≠ .nan := by
          rcases h.eq_or_eq hfirst hv with heq | heq
          · rwa [heq]
          · rwa [heq]
        obtain ⟨hne, hleft, hrest, hmem⟩ := ih hpicked
        refine ⟨hne, htrans hleft (h.left hfirst hv), List.forall_mem_cons.2
          ⟨fun _ => htrans hleft (h.right hfirst hv), hrest⟩, ?_⟩
        rcases hmem with heq | hmem
        · rw [heq]
          refine (h.eq_or_eq hfirst hv).imp_right fun hpick => ?_
          rw [hpick]
          exact List.mem_cons_self ..
        · exact .inr (List.mem_cons_of_mem _ hmem)

end Double

end BenchReport
