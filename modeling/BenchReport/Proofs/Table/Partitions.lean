import BenchReport.Proofs.Table.Rows

/-!
# Partitions split the rows

The numbers of streams are kept by their first rows, and each partition is
picked from the rows by its number alone. So the partitions are an exact split:
every row is in one of them, none is in two, and nothing in a partition has
changed places.

Rows that are written out one partition after another have the same partitions.
What carries this is that such a list is sorted by first appearance already: the
first rows of it all have the first number (`eraseDups_map_flatMap`), and
picking a number from it finds the one partition that has
it (`filter_flatMap_classes`).
-/

namespace BenchReport

section Classes

variable {α β : Type} [DecidableEq α] {f : β → α} {keys : List α}

/-- Classes that are not empty, one after another, show their keys in order. -/
theorem eraseDups_map_flatMap {classOf : α → List β} (hkeys : keys.Nodup)
    (hne : ∀ a ∈ keys, classOf a ≠ []) (hkey : ∀ a, ∀ b ∈ classOf a, f b = a) :
    ((keys.flatMap classOf).map f).eraseDups = keys := by
  induction keys with
  | nil => rfl
  | cons a rest ih =>
      obtain ⟨ha, hrest⟩ := List.nodup_cons.1 hkeys
      obtain ⟨hfirst, hlater⟩ := List.forall_mem_cons.1 hne
      obtain ⟨b, more, hclass⟩ := List.exists_cons_of_ne_nil hfirst
      have hsame : ∀ c ∈ b :: more, f c = a := by
        rw [← hclass]
        exact hkey a
      have hdropped : (more.map f).filter (fun x => !x == a) = [] := by
        rw [List.filter_eq_nil_iff, List.forall_mem_map]
        intro c hc
        simp [hsame c (List.mem_cons_of_mem b hc)]
      have hkept : ((rest.flatMap classOf).map f).filter (fun x => !x == a) =
          (rest.flatMap classOf).map f := by
        rw [List.filter_eq_self, List.forall_mem_map]
        intro c hc
        obtain ⟨other, hother, hmem⟩ := List.mem_flatMap.1 hc
        rw [hkey other c hmem]
        simpa using ne_of_mem_of_not_mem hother ha
      rw [List.flatMap_cons, hclass, List.cons_append, List.map_cons,
        hsame b (List.mem_cons_self ..), List.eraseDups_cons, List.map_append,
        List.filter_append, hdropped, hkept, List.nil_append, ih hrest hlater]

/-- Of all classes one after another, the items of one key are its class. -/
theorem filter_flatMap_classes (hkeys : keys.Nodup) {a : α} (ha : a ∈ keys)
    (l : List β) :
    (keys.flatMap fun key => l.filter (f · = key)).filter (f · = a) =
      l.filter (f · = a) := by
  obtain ⟨before, after, rfl⟩ := List.append_of_mem ha
  have hapart : a ∉ before ∧ a ∉ after := by
    rw [List.perm_middle.nodup_iff, List.nodup_cons, List.mem_append, not_or]
      at hkeys
    exact hkeys.1
  have hnone : ∀ others : List α, a ∉ others →
      (others.flatMap fun key => l.filter (f · = key)).filter (f · = a) =
        [] := by
    intro others hothers
    rw [List.filter_eq_nil_iff]
    intro b hb
    obtain ⟨key, hkey, hmem⟩ := List.mem_flatMap.1 hb
    have hb : f b = key := by simpa using (List.mem_filter.1 hmem).2
    simpa [hb] using ne_of_mem_of_not_mem hkey hothers
  rw [List.flatMap_append, List.flatMap_cons, List.filter_append,
    List.filter_append, hnone before hapart.1, hnone after hapart.2,
    List.nil_append, List.append_nil, List.filter_filter]
  simp

end Classes

namespace Table

variable {table : Table} {n : UInt32} {rows : List Timing}

theorem map_fst_partitions (table : Table) :
    table.partitions.map (·.1) = table.xstreams := by
  rw [partitions, List.map_map]
  exact List.map_id _

theorem flatMap_snd_partitions (table : Table) :
    table.partitions.flatMap (·.2) = table.xstreams.flatMap
      table.partition := by
  rw [partitions, List.flatMap_map]

theorem mem_partitions :
    (n, rows) ∈ table.partitions ↔
      n ∈ table.xstreams ∧ rows = table.partition n := by
  rw [partitions, List.mem_map]
  constructor
  · rintro ⟨m, hm, heq⟩
    cases heq
    exact ⟨hm, rfl⟩
  · rintro ⟨hn, rfl⟩
    exact ⟨n, hn, rfl⟩

theorem count_partition (table : Table) (n : UInt32) (t : Timing) :
    (table.partition n).count t = if t.xstreams = n then table.rows.count t
      else 0 := by
  split
  · next hn => exact List.count_filter (by simpa using hn)
  · next hn =>
      rw [List.count_eq_zero]
      intro hmem
      exact hn (by simpa using (List.mem_filter.1 hmem).2)

/-- The rows of a table, one partition after another. -/
def regrouped (table : Table) (name : String) : Table where
  name
  rows := table.partitions.flatMap (·.2)

theorem xstreams_regrouped (table : Table) (name : String) :
    (table.regrouped name).xstreams = table.xstreams := by
  rw [xstreams, regrouped, flatMap_snd_partitions]
  refine eraseDups_map_flatMap table.nodup_xstreams
    (fun n hn => partition_ne_nil hn) ?_
  intro n t ht
  simpa using (List.mem_filter.1 ht).2

theorem partition_regrouped (name : String) (hn : n ∈ table.xstreams) :
    (table.regrouped name).partition n = table.partition n := by
  rw [partition, regrouped, flatMap_snd_partitions]
  exact filter_flatMap_classes table.nodup_xstreams hn table.rows

theorem partitions_regrouped (table : Table) (name : String) :
    (table.regrouped name).partitions = table.partitions := by
  rw [partitions, xstreams_regrouped, partitions]
  refine List.map_congr_left fun n hn => ?_
  rw [partition_regrouped name hn]

/-- The partitions of any table split its rows. Each number of streams is there
once, in the order of the first rows, and has exactly the rows with that number,
as often and in the order as the table lists them. Together they are all rows,
and a table that lists its rows by partitions has the same partitions. -/
theorem partitions_split (table : Table) :
    (∀ n, n ∈ table.partitions.map (·.1) ↔ ∃ t ∈ table.rows, t.xstreams = n) ∧
    (table.partitions.map (·.1)).Nodup ∧
    (table.partitions.map (·.1)).Pairwise (fun m n =>
      (table.rows.map (·.xstreams)).idxOf m <
        (table.rows.map (·.xstreams)).idxOf n) ∧
    (∀ n rows, (n, rows) ∈ table.partitions →
      rows ≠ [] ∧ rows.Sublist table.rows ∧
      ∀ t, rows.count t = if t.xstreams = n then table.rows.count t else 0) ∧
    (table.partitions.flatMap (·.2)).Perm table.rows ∧
    ∀ name, (Table.mk name (table.partitions.flatMap (·.2))).partitions =
      table.partitions := by
  rw [map_fst_partitions, flatMap_snd_partitions]
  refine ⟨fun n => mem_xstreams, table.nodup_xstreams,
    table.pairwise_xstreams, ?_, table.perm_partitions, ?_⟩
  · intro n rows hmem
    obtain ⟨hn, rfl⟩ := mem_partitions.1 hmem
    exact ⟨partition_ne_nil hn, List.filter_sublist, table.count_partition n⟩
  · intro name
    rw [← flatMap_snd_partitions]
    exact table.partitions_regrouped name

/-- Four rows, the first and the third of the same streams, and twice the
same row. -/
def fourRows : Table where
  name := "four"
  rows := [⟨4, 1, .zero, .ofNat 10⟩, ⟨1, 1, .zero, .ofNat 40⟩,
    ⟨4, 1, .zero, .ofNat 10⟩, ⟨2, 1, .zero, .nan⟩]

theorem partitions_split_four :
    fourRows.partitions.map (·.1) = [4, 1, 2] ∧
    ∃ rows, (4, rows) ∈ fourRows.partitions ∧ rows ≠ [] ∧
      rows.count ⟨4, 1, .zero, .ofNat 10⟩ = 2 := by
  obtain ⟨-, -, -, hrows, -⟩ := partitions_split fourRows
  have hmem : (4, fourRows.partition 4) ∈ fourRows.partitions :=
    mem_partitions.2 ⟨by decide, rfl⟩
  obtain ⟨hne, -, hcount⟩ := hrows 4 _ hmem
  exact ⟨by decide, _, hmem, hne, (hcount _).trans (by decide +kernel)⟩

end Table

end BenchReport
