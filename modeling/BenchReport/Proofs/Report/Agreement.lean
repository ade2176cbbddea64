import BenchReport.Proofs.Json.RoundTrip
import BenchReport.Proofs.Samples.History
import BenchReport.Proofs.Table.Report

/-!
# The reports agree

Each format tells of the same groups in the same order, and what it tells of a
group reads back as the entry of the group. For each of them there is a
predicate that says what an object, a record or a line has to be for an entry;
the numbers in it are not compared by their texts, which differ from one format
to another, but by their values. What is common to the three is that a written
number is a numeral of its value.

A line is the only form that does not quote the class, so a class with a line
feed would break it in two.
-/

namespace BenchReport

/-! ## Numbers in reports -/

theorem isNumeral_toDigits (n : Nat) :
    Whole.IsNumeral 10 (Nat.toDigits 10 n) n :=
  (Whole.read_eq_ok_iff.1 (Whole.read_toDigits (Nat.lt_succ_self n))).1

theorem isNumber_toChars {style : NumeralStyle} (hstyle : style.Readable)
    (x : Double) :
    Double.IsNumber (x.toChars style) x :=
  Double.read_eq_ok_iff.1 (Double.read_toChars hstyle x)

/-- Whether the text is that of a count, where `absent` is the text of a count
that is unknown. -/
def IsCountText (absent text : List Char) : Option UInt32 → Prop
  | none => text = absent
  | some n => Whole.IsNumeral 10 text n.toNat

/-- Whether the value is that of a count. -/
def IsCountValue (value : Json.Scalar) : Option UInt32 → Prop
  | none => value = .null
  | some n => ∃ text, value = .number text ∧ Whole.IsNumeral 10 text n.toNat

namespace Entry

/-! ## Entries in each format -/

/-- Whether the object tells of the entry. -/
def IsObject (e : Entry) (object : Json.Object) : Prop :=
  ∃ xstreams threads seconds nanos samples,
    object =
      [("Class", (e.setting.problemClass.map Json.Scalar.string).getD .null),
        ("Xstreams", xstreams), ("Threads", threads), ("Time(s)", seconds),
        ("Time(nanos)", .number nanos), ("Samples", .number samples)] ∧
    IsCountValue xstreams e.setting.xstreams ∧
    IsCountValue threads e.setting.threads ∧
    (e.timeSeconds.isFinite = false → seconds = .null) ∧
    (e.timeSeconds.isFinite = true →
      ∃ text, seconds = .number text ∧ Double.IsNumber text e.timeSeconds) ∧
    Whole.IsNumeral 10 nanos e.timeNanos.toNat ∧
    Whole.IsNumeral 10 samples e.samples

/-- Whether the fields of a record tell of the entry. -/
def IsRecord (e : Entry) (fields : List (List Char)) : Prop :=
  ∃ xstreams threads seconds nanos samples,
    fields =
      [(e.setting.problemClass.map String.toList).getD [], xstreams, threads,
        seconds, nanos, samples] ∧
    IsCountText [] xstreams e.setting.xstreams ∧
    IsCountText [] threads e.setting.threads ∧
    Double.IsNumber seconds e.timeSeconds ∧
    Whole.IsNumeral 10 nanos e.timeNanos.toNat ∧
    Whole.IsNumeral 10 samples e.samples

/-- Whether the line tells of the entry. -/
def IsLine (e : Entry) (line : List Char) : Prop :=
  ∃ xstreams threads seconds,
    line = "(".toList
        ++ ((e.setting.problemClass.map fun name =>
          "'".toList ++ name.toList ++ "'".toList).getD "None".toList)
        ++ ", ".toList ++ xstreams ++ ", ".toList ++ threads
        ++ "): ".toList ++ seconds ∧
    IsCountText "None".toList xstreams e.setting.xstreams ∧
    IsCountText "None".toList threads e.setting.threads ∧
    Double.IsNumber seconds e.timeSeconds

theorem isCountValue_ofCount? (count : Option UInt32) :
    IsCountValue (Json.ofCount? count) count := by
  cases count with
  | none => rfl
  | some n => exact ⟨_, rfl, isNumeral_toDigits _⟩

theorem isObject_ofEntry (e : Entry) : e.IsObject (Json.ofEntry e) := by
  refine ⟨_, _, _, _, _, rfl, isCountValue_ofCount? _,
    isCountValue_ofCount? _, ?_, ?_, isNumeral_toDigits _, isNumeral_toDigits _⟩
  · intro hfinite
    rw [Json.ofDouble, hfinite]
    rfl
  · intro hfinite
    rw [Json.ofDouble, if_pos hfinite]
    exact ⟨_, rfl, isNumber_toChars NumeralStyle.readable_json _⟩

theorem isCountText_countField (count : Option UInt32) :
    IsCountText [] (Csv.countField count) count := by
  cases count with
  | none => rfl
  | some n => exact isNumeral_toDigits _

theorem isRecord_ofEntry (e : Entry) : e.IsRecord (Csv.ofEntry e) :=
  ⟨_, _, _, _, _, rfl, isCountText_countField _, isCountText_countField _,
    isNumber_toChars NumeralStyle.readable_tabular _, isNumeral_toDigits _,
    isNumeral_toDigits _⟩

theorem toList_countText (count : Option UInt32) :
    IsCountText "None".toList (Setting.countText count).toList count := by
  cases count with
  | none => rfl
  | some n =>
      rw [Setting.countText, Nat.toList_repr]
      exact isNumeral_toDigits _

/-- The text of the class in a line. -/
def classText (e : Entry) : List Char :=
  (e.setting.problemClass.map fun name =>
    "'".toList ++ name.toList ++ "'".toList).getD "None".toList

theorem toList_line (g : Group) :
    (line g.setting g.summary).toList = "(".toList
      ++ g.entry.classText ++ ", ".toList
      ++ (Setting.countText g.setting.xstreams).toList ++ ", ".toList
      ++ (Setting.countText g.setting.threads).toList ++ "): ".toList
      ++ g.entry.timeSeconds.toChars .fractional := by
  have hmean : (g.summary.roundedMean.toText .fractional).toList =
      g.entry.timeSeconds.toChars .fractional := String.toList_ofList
  have hclass : g.entry.setting = g.setting := rfl
  rw [line, Setting.text, classText, String.toList_append, hmean, hclass]
  cases g.setting.problemClass with
  | none => simp
  | some name => simp

theorem isLine_line (g : Group) :
    g.entry.IsLine (line g.setting g.summary).toList :=
  ⟨_, _, _, toList_line g, toList_countText _, toList_countText _,
    isNumber_toChars NumeralStyle.readable_fractional _⟩

theorem isSolid_countText (count : Option UInt32) :
    Text.IsSolid (Setting.countText count).toList := by
  cases count with
  | none => decide
  | some n =>
      rw [Setting.countText, Nat.toList_repr]
      exact Text.isSolid_toDigits _

theorem lineFeed_not_mem_line {g : Group}
    (hclass : ∀ name ∈ g.setting.problemClass, '\n' ∉ name.toList) :
    '\n' ∉ (line g.setting g.summary).toList := by
  have hblank : Text.isBlank '\n' = true := by decide
  have hcount : ∀ count, '\n' ∉ (Setting.countText count).toList := fun count =>
    (isSolid_countText count).not_mem hblank
  have hmean : '\n' ∉ g.entry.timeSeconds.toChars .fractional :=
    (Double.isSolid_toChars NumeralStyle.readable_fractional _).not_mem hblank
  have hname : '\n' ∉ g.entry.classText := by
    have hsetting : g.entry.setting = g.setting := rfl
    rw [classText, hsetting]
    cases hproblem : g.setting.problemClass with
    | none => decide
    | some name => simp [hclass name hproblem]
  rw [toList_line]
  simp [hname, hcount, hmean]

end Entry

/-! ## Reports in each format -/

/-- The fields of the records of a text. Nothing is dropped from a field. -/
def Csv.readText (text : List Char) : Except Nat (List (List (List Char))) :=
  (records (Utf8.encode text)).mapM fun record => record.fields.mapM Utf8.decode

theorem Csv.readText_report (entries : List Entry) :
    readText (report entries) = .ok (reportRecords entries) := by
  have hfields := Table.fields_records_report entries
  rw [← List.forall₂_eq_eq_eq, List.forall₂_map_left_iff,
    List.forall₂_map_right_iff] at hfields
  refine mapM_eq_ok_iff.2 (hfields.imp fun record texts hrecord => ?_)
  rw [hrecord, mapM_eq_ok_iff, List.forall₂_map_left_iff, List.forall₂_same]
  exact fun text _ => Utf8.decode_encode text

theorem splitOn_flatMap {lines : List (List Char)}
    (h : ∀ line ∈ lines, '\n' ∉ line) :
    (lines.flatMap fun line => line ++ ['\n']).splitOn '\n' =
      lines ++ [[]] := by
  induction lines with
  | nil => rfl
  | cons line rest ih =>
      obtain ⟨hline, hrest⟩ := List.forall_mem_cons.1 h
      rw [List.flatMap_cons, List.append_assoc, List.singleton_append,
        List.splitOn_append_cons_self_of_not_mem hline, ih hrest,
        List.cons_append]

namespace Samples

theorem lines_eq (s : Samples) :
    s.lines = s.nonempty.map fun g => Entry.line g.setting g.summary := by
  rw [lines, summaries_eq, List.map_map]
  rfl

theorem reportRecords_entries {s : Samples} (hne : s.nonempty ≠ []) :
    Csv.reportRecords s.entries =
      Csv.reportHeader :: s.nonempty.map fun g => Csv.ofEntry g.entry := by
  obtain ⟨g, rest, hcons⟩ := List.exists_cons_of_ne_nil hne
  rw [entries_eq, hcons, List.map_cons, Csv.reportRecords, List.map_cons,
    List.map_cons, List.map_map]
  · rfl
  · simp

variable (s : Samples)

theorem toList_report (format : ReportFormat) :
    (s.report format).toList = s.reportChars format :=
  String.toList_ofList

theorem exists_objects :
    ∃ objects, Json.read? (s.report .json).toList = some objects ∧
      List.Forall₂ (fun g object => g.entry.IsObject object) s.nonempty
        objects := by
  refine ⟨s.nonempty.map fun g => Json.ofEntry g.entry, ?_, ?_⟩
  · rw [toList_report, reportChars, Json.read?_report, entries_eq, List.map_map]
    rfl
  · rw [List.forall₂_map_right_iff, List.forall₂_same]
    exact fun g _ => g.entry.isObject_ofEntry

theorem exists_records (hne : s.nonempty ≠ []) :
    ∃ records, Csv.readText (s.report .csv).toList =
      .ok (Csv.reportHeader :: records) ∧
      List.Forall₂ (fun g fields => g.entry.IsRecord fields) s.nonempty
        records := by
  refine ⟨s.nonempty.map fun g => Csv.ofEntry g.entry, ?_, ?_⟩
  · rw [toList_report, reportChars, Csv.readText_report,
      reportRecords_entries hne]
  · rw [List.forall₂_map_right_iff, List.forall₂_same]
    exact fun g _ => g.entry.isRecord_ofEntry

theorem exists_lines
    (hclasses : ∀ g ∈ s.nonempty, ∀ name ∈ g.setting.problemClass,
      '\n' ∉ name.toList) :
    ∃ lines, (s.report .text).toList.splitOn '\n' = lines ++ [[]] ∧
      List.Forall₂ (fun g line => g.entry.IsLine line) s.nonempty lines := by
  let lines := s.nonempty.map fun g => (Entry.line g.setting g.summary).toList
  refine ⟨lines, ?_, ?_⟩
  · have hfree : ∀ line ∈ lines, '\n' ∉ line := by
      intro line hline
      obtain ⟨g, hg, rfl⟩ := List.mem_map.1 hline
      exact Entry.lineFeed_not_mem_line (hclasses g hg)
    rw [toList_report, reportChars, lines_eq, ← splitOn_flatMap hfree,
      List.flatMap_map, List.flatMap_map]
  · rw [List.forall₂_map_right_iff, List.forall₂_same]
    exact fun g _ => Entry.isLine_line g

theorem report_of_nonempty_eq_nil (hnone : s.nonempty = []) :
    s.report .json = "[]\n" ∧ s.report .csv = "" ∧ s.report .text = "" := by
  refine ⟨?_, ?_, ?_⟩
  · rw [report, reportChars, entries_eq, hnone]
    rfl
  · rw [report, reportChars, entries_eq, hnone]
    rfl
  · rw [report, reportChars, lines_eq, hnone]
    rfl

end Samples

/-- The reports on any samples. The groups that have times ascend by setting,
and each format tells of all of them in this order and of nothing else: the
objects of an array, the records after a header, and the lines, if no class has
a line feed. Without such a group there is an empty array and else no text. -/
theorem reports_agree (s : Samples) :
    let groups := s.groups.filter (·.times ≠ [])
    (groups.map (·.setting)).Pairwise Setting.Precedes ∧
    (∃ objects, Json.read? (s.report .json).toList = some objects ∧
      List.Forall₂ (fun g object => g.entry.IsObject object) groups objects) ∧
    (groups ≠ [] → ∃ records,
      Csv.readText (s.report .csv).toList =
        .ok (["Class", "Xstreams", "Threads", "Time(s)", "Time(nanos)",
          "Samples"].map String.toList :: records) ∧
      List.Forall₂ (fun g fields => g.entry.IsRecord fields) groups records) ∧
    ((∀ g ∈ groups, ∀ name ∈ g.setting.problemClass, '\n' ∉ name.toList) →
      ∃ lines,
      (s.report .text).toList.splitOn '\n' = lines ++ [[]] ∧
      List.Forall₂ (fun g line => g.entry.IsLine line) groups lines) ∧
    (groups = [] →
      s.report .json = "[]\n" ∧ s.report .csv = "" ∧ s.report .text = "") := by
  have hascending : (s.nonempty.map (·.setting)).Pairwise Setting.Precedes :=
    (Samples.precedes_settings s).sublist (List.filter_sublist.map _)
  exact ⟨hascending, s.exists_objects, s.exists_records, s.exists_lines,
    s.report_of_nonempty_eq_nil⟩

/-- A class with all that asks for quotes and escapes but a line feed, a mean
that is no number, a group whose counts are unknown and one without times. -/
theorem reports_agree_odd :
    let runs : List Run :=
      [{ setting := ⟨some " a,\"'\\\r\x1f", some 1, some 2⟩, elapsed := .nan },
        { setting := ⟨none, none, some 4294967295⟩,
          elapsed := .ofQuotient false 1 8 }]
    let s := (Samples.ofList runs).insert {} []
    let groups := s.groups.filter (·.times ≠ [])
    groups.length = 2 ∧
    (∀ g ∈ groups, ∀ name ∈ g.setting.problemClass, '\n' ∉ name.toList) ∧
    ∃ objects lines, Json.read? (s.report .json).toList = some objects ∧
      (s.report .text).toList.splitOn '\n' = lines ++ [[]] ∧
      objects.length = lines.length := by
  intro runs s groups
  have hfree :
      ∀ g ∈ groups, ∀ name ∈ g.setting.problemClass, '\n' ∉ name.toList := by
    decide +kernel
  obtain ⟨-, ⟨objects, hread, hobjects⟩, -, hlines, -⟩ := reports_agree s
  obtain ⟨lines, hsplit, hforall⟩ := hlines hfree
  exact ⟨by decide +kernel, hfree, objects, lines, hread, hsplit,
    hobjects.length_eq.symm.trans hforall.length_eq⟩

end BenchReport
