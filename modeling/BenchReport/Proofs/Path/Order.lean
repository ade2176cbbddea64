import BenchReport.Path

/-!
# The order of paths

Paths compare by their components, so two paths may be as far as each other and
still be written differently. Sorting leaves such paths in the order in which
they came, and therefore leaving some paths out does the same before sorting as
after it (`filter_mergeSort`): the path at the head of a list is sorted in
before the first path that is not less than it, whichever others are there.
Paths in one directory differ in the last component only, and come in the order
of their names (`Path.le_of_components`).
-/

namespace BenchReport

/-! ## Sorting and leaving out -/

section Sorting

variable {α : Type} {le : α → α → Bool}
  (trans : ∀ a b c, le a b → le b c → le a c) (total : ∀ a b, le a b || le b a)

include trans total

theorem mergeSort_cons_eq (a : α) (xs : List α) :
    (a :: xs).mergeSort le =
      (xs.mergeSort le).filter (!le a ·) ++ a ::
        (xs.mergeSort le).filter (le a) := by
  obtain ⟨before, after, hcons, hrest, hbefore⟩ :=
    List.mergeSort_cons trans total a xs
  have hsorted : (before ++ a :: after).Pairwise (le · ·) :=
    hcons ▸ List.pairwise_mergeSort trans total (a :: xs)
  have hafter : ∀ b ∈ after, le a b :=
    (List.pairwise_cons.1 (List.pairwise_append.1 hsorted).2.1).1
  have hleft : (before ++ after).filter (!le a ·) = before := by
    rw [List.filter_append, List.filter_eq_self.2 hbefore,
      List.filter_eq_nil_iff.2 fun b hb => by
        simp [hafter b hb], List.append_nil]
  have hright : (before ++ after).filter (le a) = after := by
    rw [List.filter_append, List.filter_eq_self.2 hafter,
      List.filter_eq_nil_iff.2 fun b hb => by
        simpa using hbefore b hb, List.nil_append]
  rw [hcons, hrest, hleft, hright]

theorem filter_mergeSort (p : α → Bool) (xs : List α) :
    (xs.mergeSort le).filter p = (xs.filter p).mergeSort le := by
  induction xs with
  | nil => simp
  | cons a rest ih =>
      by_cases ha : p a = true
      · have hcomm : ∀ q : α → Bool, ((rest.mergeSort le).filter q).filter p =
            ((rest.filter p).mergeSort le).filter q := fun q => by
          rw [← ih, List.filter_filter, List.filter_filter]
          exact List.filter_congr fun b _ => Bool.and_comm ..
        rw [mergeSort_cons_eq trans total, List.filter_cons_of_pos ha,
          mergeSort_cons_eq trans total, List.filter_append,
          List.filter_cons_of_pos ha, hcomm, hcomm]
      · obtain ⟨before, after, hcons, hrest, -⟩ :=
          List.mergeSort_cons trans total a rest
        rw [hcons, List.filter_cons_of_neg ha, ← ih, hrest, List.filter_append,
          List.filter_append, List.filter_cons_of_neg ha]

end Sorting

/-! ## Paths -/

namespace Path

instance : Std.TransOrd Component :=
  inferInstanceAs (Std.TransCmp
    (compareLex (compareOn Component.kind) (compareOn Component.name?)))

theorem le_trans (p q r : Path) (hpq : p.le q) (hqr : q.le r) : p.le r :=
  @Std.TransCmp.isLE_trans _ (List.compareLex compare) _ _ _ _ hpq hqr

theorem le_total (p q : Path) : p.le q || q.le p := by
  have hswap : List.compareLex compare q.components p.components =
      (List.compareLex compare p.components q.components).swap :=
    Std.OrientedCmp.eq_swap
  rw [le, le, hswap]
  cases List.compareLex compare p.components q.components <;> rfl

theorem compareLex_append_left {α : Type} {cmp : α → α → Ordering}
    [Std.ReflCmp cmp] (common xs ys : List α) :
    List.compareLex cmp (common ++ xs) (common ++ ys) =
      List.compareLex cmp xs ys := by
  induction common with
  | nil => rfl
  | cons a rest ih =>
      have hself : cmp a a = .eq := Std.ReflCmp.compare_self
      rw [List.cons_append, List.cons_append, List.compareLex_cons_cons, hself,
        Ordering.eq_then, ih]

/-- Paths of names in one directory come in the order of the names. -/
theorem le_of_components {p q : Path} {common : List Component} {a b : String}
    (hp : p.components = common ++ [.name a])
    (hq : q.components = common ++ [.name b]) (h : a < b) : p.le q = true := by
  have hcompare : compare (Component.name a) (.name b) = .lt :=
    compareOfLessAndEq_eq_lt.2 h
  rw [le, hp, hq, compareLex_append_left, List.compareLex_cons_cons, hcompare]
  rfl

end Path

end BenchReport
