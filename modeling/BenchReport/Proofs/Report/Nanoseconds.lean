import BenchReport.Proofs.Double.Whole
import BenchReport.Proofs.Table.Report

/-!
# Nanoseconds in a table

An entry counts whole nanoseconds in 64 bits, and the program that loads the
table reads the count as a double. Nothing is lost on the way where a count can
hold the number: the rounded number is a double, the count is that number, and
the digits of the count are read as the double nearest to it, which is the one
it came from. What is too large becomes the greatest count, 2^64 - 1, which is
no double and is read as 2^64. What is not positive becomes zero (`nanos_kept`).
-/

namespace BenchReport

open Double (zero)

/-- What becomes of a number of nanoseconds as a count and as the double that
the count is read as. -/
structure IsKept (v : Double) (count : UInt64) (back : Double) : Prop where
  nothing : ¬ zero < v → count = 0 ∧ back = zero
  exact :
    zero < v → v < .ofNat (2 ^ 64) → (count.toNat : ℚ) = v.exact ∧ back = v
  full : .ofNat (2 ^ 64) ≤ v → count.toNat = 2 ^ 64 - 1 ∧ back = .ofNat (2 ^ 64)

namespace Double

theorem not_zero_lt_negative (m : Magnitude) : ¬ zero < signed true m := by
  intro h
  have hvalue := (Double.lt_iff.1 h).2.2
  rw [zero, value_positive, value_negative] at hvalue
  omega

theorem ofNat_greatest :
    ofNat (2 ^ 64 - 1) = .ofNat (2 ^ 64) := by decide +kernel

/-- A positive number is kept as far as 64 bits go. -/
theorem isKept_positive (m : Magnitude) :
    IsKept (signed false m).whole (signed false m).toUInt64
      (.ofNat (signed false m).toUInt64.toNat) := by
  have hcount := toNat_toUInt64 m
  refine ⟨fun hzero => ?_, fun _ hless => ?_, fun hmore => ?_⟩
  · have hnone : roundedWhole m = 0 :=
      Nat.eq_zero_of_not_pos (mt (zero_lt_whole_iff m).2 hzero)
    rw [hnone] at hcount
    exact ⟨UInt64.toNat_inj.1 hcount, by rw [hcount, zero_eq]; rfl⟩
  · have hlt := (whole_lt_size_iff m).1 hless
    have hsame := hcount.trans (Nat.min_eq_left (Nat.le_sub_one_of_lt hlt))
    rw [hsame, exact_whole, withSign_false, Int.cast_natCast]
    exact ⟨rfl, rfl⟩
  · have hle := (size_le_whole_iff m).1 hmore
    have hfull := hcount.trans (Nat.min_eq_right ((Nat.sub_le ..).trans hle))
    exact ⟨hfull, by rw [hfull, ofNat_greatest]⟩

theorem isKept_toUInt64 (x : Double) :
    IsKept x.whole x.toUInt64 (.ofNat x.toUInt64.toNat) := by
  have hnone : ∀ {v : Double}, ¬ zero < v → IsKept v 0 (.ofNat 0) := by
    refine fun hv =>
      ⟨fun _ => ⟨rfl, zero_eq.symm⟩, fun hpos => absurd hpos hv,
        fun hmore => ?_⟩
    have hpos : zero < ofNat (2 ^ 64) := by decide +kernel
    exact absurd (Double.lt_of_lt_of_le hpos hmore) hv
  cases x with
  | nan => exact hnone fun h => (Double.lt_iff.1 h).2.1 rfl
  | signed s m =>
      cases s with
      | false => exact isKept_positive m
      | true => exact hnone (not_zero_lt_negative _)

end Double

/-- Nanoseconds are rounded once and never wrap. Whatever the mean is, its
nanoseconds, rounded to an integer, are the count of the entry if they are
positive and less than 2^64; the count is zero if they are not positive or no
number, and the greatest one otherwise. The digits of the count in a table are
read as the rounded number itself, as 2^64 and as zero in the three cases. So do
the rows of every written report have them, if it can be loaded. -/
theorem nanos_kept :
    (Double.ofNat (2 ^ 64)).exact = 2 ^ 64 ∧
    (∀ (x : Setting) (mean : Double) (n : ℕ),
      ∃ (v : Double) (text : List Char) (back : Double),
      v.IsWhole (mean * .ofNat 1000000000) ∧
      (Csv.ofEntry (.ofSummary x ⟨mean, n⟩))[4]? = some text ∧
      Double.read text = .ok back ∧
      IsKept v (Entry.ofSummary x ⟨mean, n⟩).timeNanos back) ∧
    ∀ (s : Samples) (tree written : FileTree) (directory : Path)
        (name : String),
      writeReport tree (Table.path directory name) (s.report .csv) =
        .ok written →
      (∀ p ∈ s.summaries, p.1.xstreams.isSome ∧ p.1.threads.isSome) →
      ∃ table, Table.load written directory name = .ok table ∧
        List.Forall₂ (fun p t => ∃ v : Double,
          v.IsWhole (p.2.mean * .ofNat 1000000000) ∧
          IsKept v (Entry.ofSummary p.1 p.2).timeNanos t.nanos)
          s.summaries table.rows := by
  refine ⟨Double.exact_size, fun x mean n => ?_, ?_⟩
  · let e := Entry.ofSummary x ⟨mean, n⟩
    exact ⟨_, _, .ofNat e.timeNanos.toNat, Double.isWhole_whole _, rfl,
      Table.read_timeNanos e, Double.isKept_toUInt64 _⟩
  · intro s tree written directory name hwritten hcounts
    obtain ⟨rows, hrows⟩ :=
      (Table.exists_rows_iff s.entries).2 (List.forall_mem_map.2 hcounts)
    refine ⟨⟨name, rows⟩,
      (Table.load_of_writeReport_eq_ok_iff hwritten _).2 ⟨rfl, hrows⟩, ?_⟩
    rw [Samples.entries, List.forall₂_map_left_iff] at hrows
    refine hrows.imp fun p t hrow => ⟨_, Double.isWhole_whole _, ?_⟩
    rw [hrow.nanos]
    exact Double.isKept_toUInt64 _

/-- A mean of two and a half nanoseconds and one of infinitely many. -/
theorem nanos_kept_extremes :
    let s := Samples.ofList
      [{ setting := ⟨none, some 1, some 1⟩,
         elapsed := .ofQuotient false 25 10000000000 },
        { setting := ⟨none, some 1, some 2⟩, elapsed := .infinity }]
    ∃ written,
      writeReport .empty (Table.path ⟨"."⟩ "t") (s.report .csv) = .ok written ∧
      (∀ p ∈ s.summaries, p.1.xstreams.isSome ∧ p.1.threads.isSome) ∧
      s.entries.map (·.timeNanos) = [3, 18446744073709551615] ∧
      ∃ table, Table.load written ⟨"."⟩ "t" = .ok table ∧
        List.Forall₂ (fun p t => ∃ v : Double,
          v.IsWhole (p.2.mean * .ofNat 1000000000) ∧
          IsKept v (Entry.ofSummary p.1 p.2).timeNanos t.nanos)
          s.summaries table.rows := by
  intro s
  have hroute : FileTree.route? (Table.path ⟨"."⟩ "t") =
      .ok ⟨false, [.here, .name ⟨"t.csv", by decide⟩], false⟩ := by
    decide +kernel
  have hwritten : writeReport .empty (Table.path ⟨"."⟩ "t") (s.report .csv) =
      .ok (FileTree.empty.put [⟨"t.csv", by decide⟩]
        (.file (Utf8.encode (s.report .csv).toList))) := by
    rw [writeReport, FileTree.write_empty hroute]
  have hcounts :
      ∀ p ∈ s.summaries, p.1.xstreams.isSome ∧ p.1.threads.isSome := by
    decide +kernel
  obtain ⟨-, -, hloaded⟩ := nanos_kept
  exact ⟨_, hwritten, hcounts, by decide +kernel,
    hloaded s _ _ _ _ hwritten hcounts⟩

end BenchReport
