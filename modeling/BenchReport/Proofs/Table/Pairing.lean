import BenchReport.Proofs.Table.Rows
import Mathlib.Data.List.Perm.Subperm

/-!
# Rows that go together

Two lists of rows go together if both have the same threads, each of them once.
The pairing of two tables never asks for that at once: it compares the lengths,
looks for repetitions on one side, and takes each partner out of the list when
it is used, so that a second row with the same threads finds none.

That is enough. If the pairing runs through, the threads of the first side are
distinct and among those of the second (`subset_of_pairRatios`), and as the
lengths agree they are all of them. In the other direction, taking a partner out
does not matter for rows with other threads, so for distinct threads the pairing
is the same step for each row of the first side (`pairRatios_eq_mapM`), and the
first row at which the step fails is the one that is told. Where none fails, the
ratios are said without any pairing (`ratios_eq_ok_iff`).
-/

namespace BenchReport

open Double (zero)

namespace Table

/-- Whether rows and their partners have the same threads, each of them once. -/
structure GoTogether (rows partners : List Timing) : Prop where
  nodup_rows : (rows.map (·.threads)).Nodup
  nodup_partners : (partners.map (·.threads)).Nodup
  same_threads : ∀ n, n ∈ rows.map (·.threads) ↔ n ∈ partners.map (·.threads)

/-- Whether a row and the only one of its partners that has the same threads
give the pair. -/
def Joins (partners : List Timing) (t : Timing) (pair : UInt32 × Double) :
    Prop :=
  ∃ p, partners.filter (·.threads = t.threads) = [p] ∧ t.isValid = true ∧
    isDividend p = true ∧ pair = (t.threads, p.nanos / t.nanos)

variable {first second : Table} {n : UInt32} {t p : Timing}
  {rows partners : List Timing}

/-! ## Repetitions -/

theorem repeated?_eq_none_iff {seen : List UInt32} :
    repeated? seen rows = none ↔
      (rows.map (·.threads)).Nodup ∧ ∀ t ∈ rows, t.threads ∉ seen := by
  induction rows generalizing seen with
  | nil => simp [repeated?]
  | cons t rest ih =>
      rw [repeated?, List.map_cons, List.nodup_cons, List.forall_mem_cons]
      split
      · next hseen =>
        rw [List.contains_iff_mem] at hseen
        simp [hseen]
      · next hseen =>
        rw [List.contains_iff_mem] at hseen
        rw [ih]
        simp only [List.mem_cons, not_or, List.mem_map, not_exists, not_and]
        constructor
        · rintro ⟨hnodup, hrest⟩
          exact ⟨⟨fun u hu => (hrest u hu).1, hnodup⟩, hseen,
            fun u hu => (hrest u hu).2⟩
        · rintro ⟨⟨hapart, hnodup⟩, -, hrest⟩
          exact ⟨hnodup, fun u hu => ⟨hapart u hu, hrest u hu⟩⟩

/-! ## Partners -/

theorem exists_partner (hnodup : (partners.map (·.threads)).Nodup)
    (hmem : n ∈ partners.map (·.threads)) :
    ∃ p, partners.filter (·.threads = n) = [p] := by
  obtain ⟨p, hp, rfl⟩ := List.mem_map.1 hmem
  obtain ⟨before, after, rfl⟩ := List.append_of_mem hp
  rw [List.map_append, List.map_cons, List.perm_middle.nodup_iff,
    List.nodup_cons, List.mem_append, not_or] at hnodup
  have hnone : ∀ l : List Timing, p.threads ∉ l.map (·.threads) →
      l.filter (·.threads = p.threads) = [] := by
    intro l hl
    rw [List.filter_eq_nil_iff]
    intro u hu heq
    exact hl (List.mem_map.2 ⟨u, hu, by simpa using heq⟩)
  refine ⟨p, ?_⟩
  rw [List.filter_append, List.filter_cons_of_pos (by simp), hnone _ hnodup.1.1,
    hnone _ hnodup.1.2, List.nil_append]

theorem find?_of_partner (hp : partners.filter (·.threads = n) = [p]) :
    partners.find? (·.threads = n) = some p := by
  rw [← List.head?_filter, hp, List.head?_cons]

theorem mem_of_partner (hp : partners.filter (·.threads = n) = [p]) :
    p ∈ partners ∧ p.threads = n := by
  have hmem : p ∈ partners.filter (·.threads = n) := by simp [hp]
  simpa using hmem

theorem find?_eraseP_of_ne {m : UInt32} (hne : m ≠ n) :
    (partners.eraseP (·.threads = n)).find? (·.threads = m) =
      partners.find? (·.threads = m) := by
  induction partners with
  | nil => rfl
  | cons p rest ih =>
      rw [List.eraseP_cons]
      by_cases hp : p.threads = n
      · have hm : ¬ p.threads = m := by
          intro heq
          exact hne (heq.symm.trans hp)
        simp [hp, hne.symm]
      · simp [hp, List.find?_cons, ih]

theorem not_mem_map_eraseP (hnodup : (partners.map (·.threads)).Nodup)
    (n : UInt32) :
    n ∉ (partners.eraseP (·.threads = n)).map (·.threads) := by
  have herase : (partners.eraseP (·.threads = n)).map (·.threads) =
      (partners.map (·.threads)).erase n := by
    rw [List.erase_eq_eraseP, List.eraseP_map]
    congr 2
    funext u
    rw [Function.comp_apply, beq_eq_decide, decide_eq_decide]
    exact eq_comm
  rw [herase]
  exact hnodup.not_mem_erase

/-! ## The pairing as one step for each row -/

/-- The ratio of a row with its partner among `partners`. -/
def pairRatio (first second : Table) (xstreams : UInt32)
    (partners : List Timing) (t : Timing) :
    Except TimingError (UInt32 × Double) :=
  match partners.find? (·.threads = t.threads) with
  | none =>
    .error (.misaligned first.name second.name xstreams (.missing t.threads))
  | some partner =>
    if !t.isValid then .error (.invalidTiming first.name t)
    else if !isDividend partner then .error (.invalidTiming second.name partner)
    else .ok (t.threads, partner.nanos / t.nanos)

theorem pairRatio_of_partner
    (hp : partners.filter (·.threads = t.threads) = [p]) :
    pairRatio first second n partners t =
      if !t.isValid then .error (.invalidTiming first.name t)
      else if !isDividend p then .error (.invalidTiming second.name p)
      else .ok (t.threads, p.nanos / t.nanos) := by
  rw [pairRatio, find?_of_partner hp]

theorem pairRatios_cons (rest : List Timing) :
    pairRatios first second n (t :: rest) partners =
      match pairRatio first second n partners t with
      | .error e => .error e
      | .ok pair =>
        (pairRatios first second n rest
          (partners.eraseP (·.threads = t.threads))).map
          (pair :: ·) := by
  rw [pairRatios, pairRatio]
  cases partners.find? (·.threads = t.threads) with
  | none => rfl
  | some partner =>
      dsimp only
      split
      · rfl
      · split <;> rfl

theorem pairRatios_eq_mapM (hrows : (rows.map (·.threads)).Nodup) :
    pairRatios first second n rows partners =
      rows.mapM (pairRatio first second n partners) := by
  induction rows generalizing partners with
  | nil => rfl
  | cons t rest ih =>
      obtain ⟨ht, hrest⟩ := List.nodup_cons.1 hrows
      have hlater :
          rest.mapM (pairRatio first second n
              (partners.eraseP (·.threads = t.threads))) =
            rest.mapM (pairRatio first second n partners) := by
        refine mapM_congr ?_
        intro u hu
        have hne : u.threads ≠ t.threads := by
          intro heq
          exact ht (List.mem_map.2 ⟨u, hu, heq⟩)
        rw [pairRatio, pairRatio, find?_eraseP_of_ne hne]
      rw [pairRatios_cons, ih hrest, hlater]
      cases hpair : pairRatio first second n partners t with
      | error e => rw [mapM_cons_of_error hpair]
      | ok pair => rw [mapM_cons_of_ok hpair]

theorem mem_of_pairRatio {pair : UInt32 × Double}
    (h : pairRatio first second n partners t = .ok pair) :
    t.threads ∈ partners.map (·.threads) := by
  rw [pairRatio] at h
  split at h
  · cases h
  · next p hfound =>
    have hthreads : p.threads = t.threads := by
      simpa using List.find?_some hfound
    exact List.mem_map.2 ⟨p, List.mem_of_find?_eq_some hfound, hthreads⟩

theorem subset_of_pairRatios {ratios : List (UInt32 × Double)}
    (hpartners : (partners.map (·.threads)).Nodup)
    (h : pairRatios first second n rows partners = .ok ratios) :
    (rows.map (·.threads)).Nodup ∧ rows.map (·.threads) ⊆
      partners.map (·.threads) := by
  induction rows generalizing partners ratios with
  | nil => simp
  | cons t rest ih =>
      rw [pairRatios_cons] at h
      split at h
      · cases h
      · next pair hpair =>
        obtain ⟨later, hlater, -⟩ := map_eq_ok_iff.1 h
        have hsub :
            (partners.eraseP (·.threads = t.threads)).Sublist partners :=
          List.eraseP_sublist
        obtain ⟨hrest, hsubset⟩ := ih ((hsub.map _).nodup hpartners) hlater
        have hmem := mem_of_pairRatio hpair
        -- the partner of `t` is gone, so no later row has the threads of `t`
        have hgone := not_mem_map_eraseP hpartners t.threads
        refine ⟨?_, ?_⟩
        · rw [List.map_cons, List.nodup_cons]
          exact ⟨fun h => hgone (hsubset h), hrest⟩
        · rw [List.map_cons, List.cons_subset]
          exact ⟨hmem, List.Subset.trans hsubset (hsub.map _).subset⟩

/-! ## Two tables -/

theorem GoTogether.length_eq (h : GoTogether rows partners) :
    rows.length = partners.length := by
  have hperm :=
    (List.perm_ext_iff_of_nodup h.nodup_rows h.nodup_partners).2 h.same_threads
  simpa using hperm.length_eq

theorem GoTogether.exists_partner (h : GoTogether rows partners)
    (ht : t ∈ rows) :
    ∃ p, partners.filter (·.threads = t.threads) = [p] := by
  refine Table.exists_partner h.nodup_partners ?_
  rw [← h.same_threads]
  exact List.mem_map_of_mem ht

theorem ratios_of_length_ne
    (hlength : (first.partition n).length ≠ (second.partition n).length) :
    first.ratios second n = .error (.misaligned first.name second.name n
      (.rowCounts (first.partition n).length (second.partition n).length)) :=
  if_pos hlength

theorem ratios_of_not_nodup
    (hnodup : ¬ ((second.partition n).map (·.threads)).Nodup) :
    ∃ cause, first.ratios second n =
      .error (.misaligned first.name second.name n cause) := by
  rw [ratios]
  split
  · exact ⟨_, rfl⟩
  · split
    · exact ⟨_, rfl⟩
    · next hnone => exact absurd (repeated?_eq_none_iff.1 hnone).1 hnodup

theorem ratios_of_goTogether
    (h : GoTogether (first.partition n) (second.partition n)) :
    first.ratios second n =
      (first.partition n).mapM
        (pairRatio first second n (second.partition n)) := by
  have hnone : repeated? [] (second.partition n) = none :=
    repeated?_eq_none_iff.2 ⟨h.nodup_partners, by simp⟩
  rw [← pairRatios_eq_mapM h.nodup_rows, ratios]
  simp [h.length_eq, hnone]

/-- Equally many rows with distinct threads that are all found among distinct
ones have the same threads. -/
theorem goTogether_of_ratios {pairs : List (UInt32 × Double)}
    (h : first.ratios second n = .ok pairs) :
    GoTogether (first.partition n) (second.partition n) := by
  rw [ratios] at h
  split at h
  · cases h
  · next hlength =>
    split at h
    · cases h
    · next hnone =>
      have hpartners := (repeated?_eq_none_iff.1 hnone).1
      obtain ⟨hrows, hsubset⟩ := subset_of_pairRatios hpartners h
      have hperm := (List.subperm_of_subset hrows hsubset).perm_of_length_le
        (by simp only [List.length_map]; omega)
      exact ⟨hrows, hpartners, fun m => hperm.mem_iff⟩

theorem pairRatio_eq_ok_iff (hp : partners.filter (·.threads = t.threads) = [p])
    {pair : UInt32 × Double} :
    pairRatio first second n partners t = .ok pair ↔
      t.isValid = true ∧ isDividend p = true ∧
        pair = (t.threads, p.nanos / t.nanos) := by
  rw [pairRatio_of_partner hp]
  cases t.isValid <;> cases isDividend p <;> simp [eq_comm]

theorem pairRatio_eq_error_iff
    (hp : partners.filter (·.threads = t.threads) = [p]) {error : TimingError} :
    pairRatio first second n partners t = .error error ↔
      (¬ t.isValid = true ∧ error = .invalidTiming first.name t) ∨
      (t.isValid = true ∧ ¬ isDividend p = true ∧
        error = .invalidTiming second.name p) := by
  rw [pairRatio_of_partner hp]
  cases t.isValid <;> cases isDividend p <;> simp [eq_comm]

theorem exists_ratios_iff :
    (∃ pairs, first.ratios second n = .ok pairs) ↔
      GoTogether (first.partition n) (second.partition n) ∧
      (∀ t ∈ first.partition n, t.isValid = true) ∧
      ∀ p ∈ second.partition n, isDividend p = true := by
  constructor
  · intro h
    have htogether := goTogether_of_ratios h.choose_spec
    rw [ratios_of_goTogether htogether, exists_mapM_eq_ok_iff] at h
    refine ⟨htogether, ?_, ?_⟩
    · intro t ht
      obtain ⟨p, hp⟩ := htogether.exists_partner ht
      obtain ⟨pair, hpair⟩ := h t ht
      exact ((pairRatio_eq_ok_iff hp).1 hpair).1
    · intro p hp
      -- every row of the second table is the partner of one of the first
      have hmem : p.threads ∈ (first.partition n).map (·.threads) :=
        (htogether.same_threads _).2 (List.mem_map_of_mem hp)
      obtain ⟨t, ht, hthreads⟩ := List.mem_map.1 hmem
      obtain ⟨q, hq⟩ := htogether.exists_partner ht
      obtain ⟨pair, hpair⟩ := h t ht
      obtain rfl : p = q := by
        have hmem :
            p ∈ (second.partition n).filter (·.threads = t.threads) := by
          simp [hp, hthreads]
        simpa [hq] using hmem
      exact ((pairRatio_eq_ok_iff hq).1 hpair).2.1
  · rintro ⟨htogether, hvalid, hdividend⟩
    rw [ratios_of_goTogether htogether, exists_mapM_eq_ok_iff]
    intro t ht
    obtain ⟨p, hp⟩ := htogether.exists_partner ht
    have hpartner := hdividend p (mem_of_partner hp).1
    exact ⟨_, (pairRatio_eq_ok_iff hp).2 ⟨hvalid t ht, hpartner, rfl⟩⟩

theorem ratios_eq_ok_iff {pairs : List (UInt32 × Double)} :
    first.ratios second n = .ok pairs ↔
      GoTogether (first.partition n) (second.partition n) ∧
        List.Forall₂ (Joins (second.partition n)) (first.partition n)
          pairs := by
  constructor
  · intro h
    have htogether := goTogether_of_ratios h
    rw [ratios_of_goTogether htogether, mapM_eq_ok_iff] at h
    have hpartners : ∀ t ∈ first.partition n, ∃ p,
        (second.partition n).filter (·.threads = t.threads) = [p] :=
      fun t ht => htogether.exists_partner ht
    refine ⟨htogether, (List.forall₂_and_left _ _).2 ⟨hpartners, h⟩ |>.imp ?_⟩
    intro t pair hpair
    obtain ⟨⟨p, hp⟩, hpair⟩ := hpair
    exact ⟨p, hp, (pairRatio_eq_ok_iff hp).1 hpair⟩
  · intro ⟨htogether, hpairs⟩
    rw [ratios_of_goTogether htogether, mapM_eq_ok_iff]
    refine hpairs.imp fun t pair hpair => ?_
    obtain ⟨p, hp, hpair⟩ := hpair
    exact (pairRatio_eq_ok_iff hp).2 hpair

theorem forall₂_of_ratios {pairs : List (UInt32 × Double)}
    (h : first.ratios second n = .ok pairs) :
    List.Forall₂ (fun t pair => ∃ p,
        (second.partition n).filter (·.threads = t.threads) = [p] ∧
        pair = (t.threads, p.nanos / t.nanos))
      (first.partition n) pairs := by
  refine (ratios_eq_ok_iff.1 h).2.imp fun t pair hpair => ?_
  obtain ⟨p, hp, -, -, hpair⟩ := hpair
  exact ⟨p, hp, hpair⟩

theorem first_fault_of_goTogether {error : TimingError}
    (htogether : GoTogether (first.partition n) (second.partition n))
    (h : first.ratios second n = .error error) :
    ∃ before t after p, first.partition n = before ++ t :: after ∧
      (second.partition n).filter (·.threads = t.threads) = [p] ∧
      (∀ u ∈ before, u.isValid = true ∧
        ∀ q ∈ second.partition n, q.threads = u.threads → isDividend q = true) ∧
      ((¬ t.isValid = true ∧ error = .invalidTiming first.name t) ∨
        (t.isValid = true ∧ ¬ isDividend p = true ∧
          error = .invalidTiming second.name p)) := by
  rw [ratios_of_goTogether htogether, mapM_eq_error_iff] at h
  obtain ⟨before, t, after, hrows, hbefore, ht⟩ := h
  have hmem : ∀ u ∈ before ++ t :: after, ∃ p,
      (second.partition n).filter (·.threads = u.threads) = [p] := by
    rw [← hrows]
    exact fun u hu => htogether.exists_partner hu
  obtain ⟨p, hp⟩ := hmem t (by simp)
  refine ⟨before, t, after, p, hrows, hp, ?_, (pairRatio_eq_error_iff hp).1 ht⟩
  intro u hu
  obtain ⟨q, hq⟩ := hmem u (by simp [hu])
  obtain ⟨pair, hpair⟩ := hbefore u hu
  obtain ⟨hvalid, hdividend, -⟩ := (pairRatio_eq_ok_iff hq).1 hpair
  refine ⟨hvalid, ?_⟩
  intro q' hq' hthreads
  obtain rfl : q' = q := by
    have hmem : q' ∈ (second.partition n).filter (·.threads = u.threads) := by
      simp [hq', hthreads]
    simpa [hq] using hmem
  exact hdividend

/-- The ratios of two tables for some number of streams. They exist exactly if
the rows go together, the times of the first table can be divided by and those
of the second one can be divided; then there is one for each row of the first
table, in the order of the rows, against the only row of the second table with
its threads. For rows that go together, the first row of the first table that
has a bad time, or a partner with one, is the one that is told. -/
theorem ratios_exact (first second : Table) (n : UInt32) :
    ((∃ pairs, first.ratios second n = .ok pairs) ↔
      GoTogether (first.partition n) (second.partition n) ∧
      (∀ t ∈ first.partition n, t.nanos.isFinite = true ∧ zero < t.nanos) ∧
      ∀ p ∈ second.partition n, p.nanos.isFinite = true ∧ zero ≤ p.nanos) ∧
    (∀ pairs, first.ratios second n = .ok pairs →
      List.Forall₂ (fun t pair => ∃ p,
          (second.partition n).filter (·.threads = t.threads) = [p] ∧
          pair = (t.threads, p.nanos / t.nanos))
        (first.partition n) pairs) ∧
    (GoTogether (first.partition n) (second.partition n) →
      ∀ error, first.ratios second n = .error error →
        ∃ before t after p, first.partition n = before ++ t :: after ∧
          (second.partition n).filter (·.threads = t.threads) = [p] ∧
          (∀ u ∈ before, (u.nanos.isFinite = true ∧ zero < u.nanos) ∧
            ∀ q ∈ second.partition n, q.threads = u.threads →
              q.nanos.isFinite = true ∧ zero ≤ q.nanos) ∧
          ((¬ (t.nanos.isFinite = true ∧ zero < t.nanos) ∧
              error = .invalidTiming first.name t) ∨
            ((t.nanos.isFinite = true ∧ zero < t.nanos) ∧
              ¬ (p.nanos.isFinite = true ∧ zero ≤ p.nanos) ∧
              error = .invalidTiming second.name p))) ∧
    ((first.partition n).length ≠ (second.partition n).length →
      ∃ cause, first.ratios second n =
        .error (.misaligned first.name second.name n cause)) ∧
    (¬ ((second.partition n).map (·.threads)).Nodup →
      ∃ cause, first.ratios second n =
        .error (.misaligned first.name second.name n cause)) := by
  simp only [← Timing.isValid_iff, ← isDividend_iff]
  refine ⟨exists_ratios_iff, ?_, ?_, ?_, ratios_of_not_nodup⟩
  · intro pairs h
    exact forall₂_of_ratios h
  · intro htogether error h
    exact first_fault_of_goTogether htogether h
  · intro hlength
    exact ⟨_, ratios_of_length_ne hlength⟩

/-- Two rows of two streams in one order, and a row of one stream. -/
def treeOfThree : Table where
  name := "tree"
  rows := [⟨2, 1, zero, .ofNat 100⟩, ⟨1, 1, zero, .ofNat 10⟩,
    ⟨2, 4, zero, .ofNat 25⟩]

/-- The same rows in another order, one of them without a time. -/
def simpleOfThree : Table where
  name := "simple"
  rows := [⟨2, 4, zero, .ofNat 100⟩, ⟨2, 1, zero, zero⟩, ⟨1, 1, zero, .nan⟩]

theorem ratios_exact_of_three :
    (∃ pairs, treeOfThree.ratios simpleOfThree 2 = .ok pairs ∧
      pairs.map (·.1) = [1, 4]) ∧
    ∃ t, treeOfThree.ratios simpleOfThree 1 =
      .error (.invalidTiming "simple" t) := by
  obtain ⟨hiff, hpairs, -⟩ := ratios_exact treeOfThree simpleOfThree 2
  obtain ⟨hnone, -, hfault, -⟩ := ratios_exact treeOfThree simpleOfThree 1
  constructor
  · have htogether :
        GoTogether (treeOfThree.partition 2) (simpleOfThree.partition 2) :=
      ⟨by decide, by decide, fun n => by
        show n ∈ [1, 4] ↔ n ∈ [4, 1]
        simp [or_comm]⟩
    obtain ⟨pairs, h⟩ :=
      hiff.2 ⟨htogether, by decide +kernel, by decide +kernel⟩
    refine ⟨pairs, h, ?_⟩
    obtain ⟨first, rest, ⟨-, -, rfl⟩, hrest, rfl⟩ :=
      List.forall₂_cons_left_iff.1 (hpairs pairs h)
    obtain ⟨second, none, ⟨-, -, rfl⟩, hnone, rfl⟩ :=
      List.forall₂_cons_left_iff.1 hrest
    rw [List.forall₂_nil_left_iff.1 hnone]
    rfl
  · have htogether :
        GoTogether (treeOfThree.partition 1) (simpleOfThree.partition 1) :=
      ⟨by decide, by decide, fun n => Iff.rfl⟩
    cases h : treeOfThree.ratios simpleOfThree 1 with
    | ok pairs => exact absurd (hnone.1 ⟨pairs, h⟩).2.2 (by decide +kernel)
    | error e =>
        obtain ⟨before, t, after, p, hrows, -, -, hcause⟩ :=
          hfault htogether e h
        have ht : t ∈ treeOfThree.partition 1 := by simp [hrows]
        have hvalid : ∀ t ∈ treeOfThree.partition 1, t.nanos.isFinite = true ∧
            zero < t.nanos := by
          decide +kernel
        rcases hcause with ⟨hinvalid, -⟩ | ⟨-, -, rfl⟩
        · exact absurd (hvalid t ht) hinvalid
        · exact ⟨p, rfl⟩

end Table

end BenchReport
