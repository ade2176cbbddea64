import Mathlib.Data.List.Forall2

/-!
# Steps that may fail

Two steps in a row give a result if the first one does and the second one does
on what the first has given. A step taken for each item of a list gives the list
of its results, one for each item, and if it fails, then with the error of the
first item that has no result.
-/

namespace BenchReport

variable {ε α β : Type}

theorem bind_eq_ok_iff {x : Except ε α} {f : α → Except ε β} {b : β} :
    (x >>= f) = .ok b ↔ ∃ a, x = .ok a ∧ f a = .ok b := by
  cases x with
  | error e =>
      refine iff_of_false nofun ?_
      rintro ⟨a, ha, -⟩
      cases ha
  | ok a =>
      constructor
      · exact fun h => ⟨a, rfl, h⟩
      · rintro ⟨_, ha, h⟩
        cases ha
        exact h

theorem map_eq_ok_iff {x : Except ε α} {f : α → β} {b : β} :
    x.map f = .ok b ↔ ∃ a, x = .ok a ∧ f a = b := by
  cases x with
  | error e =>
      refine iff_of_false nofun ?_
      rintro ⟨a, ha, -⟩
      cases ha
  | ok a =>
      constructor
      · exact fun h => ⟨a, rfl, Except.ok.inj h⟩
      · rintro ⟨_, ha, rfl⟩
        cases ha
        rfl

theorem map_eq_error_iff {x : Except ε α} {f : α → β} {e : ε} :
    x.map f = .error e ↔ x = .error e := by
  cases x <;> simp [Except.map]

theorem toOption_eq_some_iff {x : Except ε α} {a : α} :
    x.toOption = some a ↔ x = .ok a := by
  cases x with
  | error e => exact iff_of_false nofun nofun
  | ok b =>
      constructor
      · exact fun h => congrArg Except.ok (Option.some.inj h)
      · exact fun h => congrArg some (Except.ok.inj h)

theorem mapM_eq_ok_iff {f : α → Except ε β} {xs : List α} {ys : List β} :
    xs.mapM f = .ok ys ↔ List.Forall₂ (fun x y => f x = .ok y) xs ys := by
  induction xs generalizing ys with
  | nil => simp [pure, Except.pure, eq_comm]
  | cons x rest ih =>
      rw [List.mapM_cons, List.forall₂_cons_left_iff]
      cases hx : f x with
      | error e => simp [bind, Except.bind]
      | ok y =>
          cases hrest : rest.mapM f with
          | error e => simp [bind, Except.bind, ← ih, hrest]
          | ok later =>
              simp [bind, Except.bind, pure, Except.pure, ← ih, hrest, eq_comm]

theorem exists_of_mem_mapM {f : α → Except ε β} {xs : List α} {ys : List β}
    (h : xs.mapM f = .ok ys) {y : β} (hy : y ∈ ys) : ∃ x ∈ xs, f x = .ok y := by
  induction mapM_eq_ok_iff.1 h with
  | nil => cases hy
  | cons hfirst hrest ih =>
      rcases List.mem_cons.1 hy with rfl | hy
      · exact ⟨_, List.mem_cons_self .., hfirst⟩
      · obtain ⟨x, hx, hfx⟩ := ih (mapM_eq_ok_iff.2 hrest) hy
        exact ⟨x, List.mem_cons_of_mem _ hx, hfx⟩

theorem mapM_congr {f g : α → Except ε β} {xs : List α}
    (h : ∀ x ∈ xs, f x = g x) :
    xs.mapM f = xs.mapM g := by
  induction xs with
  | nil => rfl
  | cons x rest ih =>
      obtain ⟨hx, hrest⟩ := List.forall_mem_cons.1 h
      rw [List.mapM_cons, List.mapM_cons, hx, ih hrest]

theorem mapM_cons_of_ok {f : α → Except ε β} {x : α} {y : β} (h : f x = .ok y)
    (xs : List α) :
    (x :: xs).mapM f = (xs.mapM f).map (y :: ·) := by
  rw [List.mapM_cons, h]
  rfl

theorem mapM_cons_of_error {f : α → Except ε β} {x : α} {e : ε}
    (h : f x = .error e) (xs : List α) : (x :: xs).mapM f = .error e := by
  rw [List.mapM_cons, h]
  rfl

theorem exists_mapM_eq_ok_iff {f : α → Except ε β} {xs : List α} :
    (∃ ys, xs.mapM f = .ok ys) ↔ ∀ x ∈ xs, ∃ y, f x = .ok y := by
  induction xs with
  | nil => simp [pure, Except.pure]
  | cons x rest ih =>
      rw [List.forall_mem_cons, ← ih]
      cases hx : f x with
      | error e => simp [mapM_cons_of_error hx]
      | ok y => simp [mapM_cons_of_ok hx, map_eq_ok_iff]

theorem mapM_eq_error_iff {f : α → Except ε β} {xs : List α} {e : ε} :
    xs.mapM f = .error e ↔ ∃ before x after, xs = before ++ x :: after ∧
      (∀ y ∈ before, ∃ b, f y = .ok b) ∧ f x = .error e := by
  induction xs with
  | nil => simp [pure, Except.pure]
  | cons first rest ih =>
      cases hfirst : f first with
      | error e' =>
          rw [mapM_cons_of_error hfirst]
          constructor
          · intro h
            cases h
            exact ⟨[], first, rest, rfl, by simp, hfirst⟩
          · rintro ⟨before, x, after, heq, hbefore, hx⟩
            cases before with
            | nil =>
                cases heq
                cases hfirst.symm.trans hx
                rfl
            | cons y later =>
                cases heq
                obtain ⟨b, hb⟩ := hbefore first (by simp)
                cases hfirst.symm.trans hb
      | ok b =>
          rw [mapM_cons_of_ok hfirst, map_eq_error_iff, ih]
          constructor
          · rintro ⟨before, x, after, rfl, hbefore, hx⟩
            exact ⟨first :: before, x, after, rfl,
              List.forall_mem_cons.2 ⟨⟨b, hfirst⟩, hbefore⟩, hx⟩
          · rintro ⟨before, x, after, heq, hbefore, hx⟩
            cases before with
            | nil =>
                cases heq
                cases hfirst.symm.trans hx
            | cons y later =>
                cases heq
                exact ⟨later, x, after, rfl,
                  (List.forall_mem_cons.1 hbefore).2, hx⟩

end BenchReport
