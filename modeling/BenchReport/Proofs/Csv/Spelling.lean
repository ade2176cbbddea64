import BenchReport.Csv.Read
import Mathlib.Data.List.Basic

/-!
# Spellings of records

A field can be written as it is, if no byte in it ends a field and the first one
is no quote, and any field can be written between quotes. Fields are joined by
commas, and records are ended by line ends, of which the last one may be left
out. More line ends make blank lines, so a carriage return and a line feed
together are one line end and a blank line. The main statement is
`fields_records_of_spells`: whatever the spelling, the fields are read.

A field is read up to what comes after it, which is the end of the file, a comma
or a line end. All three are told by the bytes after the field, so there is one
lemma for a field, one for a record and one for a file, and none for how a field
ends.
-/

namespace BenchReport.Csv

/-- Whether the byte ends a field without quotes. -/
def endsField (b : UInt8) : Bool :=
  b = comma || isLineEnd b

/-- Bytes with every quote written twice. -/
def doubled (bytes : List UInt8) : List UInt8 :=
  bytes.flatMap fun b => if b = quote then [quote, quote] else [b]

/-- Whether the bytes are a spelling of the field. -/
inductive SpellsField : List UInt8 → List UInt8 → Prop where
  /-- The field as it is. -/
  | plain {field : List UInt8} (hfree : ∀ b ∈ field, endsField b = false)
      (hopen : field.head? ≠ some quote) : SpellsField field field
  /-- The field between quotes. -/
  | quoted (field : List UInt8) :
    SpellsField (quote :: (doubled field ++ [quote])) field

/-- Whether the bytes are a spelling of the fields of a record. -/
inductive SpellsRecord : List UInt8 → List (List UInt8) → Prop where
  /-- One field. -/
  | single {bytes field : List UInt8} (h : SpellsField bytes field) :
    SpellsRecord bytes [field]
  /-- A field before others. -/
  | cons {bytes field rest : List UInt8} {fields : List (List UInt8)}
      (h : SpellsField bytes field) (hrest : SpellsRecord rest fields) :
      SpellsRecord (bytes ++ comma :: rest) (field :: fields)

/-- Whether the bytes are a spelling of the records of a file. A record of no
bytes would be a blank line. -/
inductive SpellsRecords : List UInt8 → List (List (List UInt8)) → Prop where
  /-- No record. -/
  | nil : SpellsRecords [] []
  /-- A blank line. -/
  | blank {b : UInt8} {bytes : List UInt8} {records : List (List (List UInt8))}
      (hb : isLineEnd b = true) (h : SpellsRecords bytes records) :
      SpellsRecords (b :: bytes) records
  /-- A record that the file ends with. -/
  | single {bytes : List UInt8} {fields : List (List UInt8)}
      (h : SpellsRecord bytes fields) (hne : bytes ≠ []) :
      SpellsRecords bytes [fields]
  /-- A record with a line end. -/
  | cons {b : UInt8} {bytes rest : List UInt8} {fields : List (List UInt8)}
      {records : List (List (List UInt8))} (h : SpellsRecord bytes fields)
      (hne : bytes ≠ []) (hb : isLineEnd b = true)
      (hrest : SpellsRecords rest records) :
      SpellsRecords (bytes ++ b :: rest) (fields :: records)

/-- Whether the bytes are those of a file of the records, with or without a byte
order mark. -/
inductive Spells : List UInt8 → List (List (List UInt8)) → Prop where
  /-- Without a mark. -/
  | plain {bytes : List UInt8} {records : List (List (List UInt8))}
      (h : SpellsRecords bytes records)
      (hmark : byteOrderMark.isPrefixOf? bytes = none) :
      Spells bytes records
  /-- With a mark. -/
  | marked {bytes : List UInt8} {records : List (List (List UInt8))}
      (h : SpellsRecords bytes records) :
      Spells (byteOrderMark ++ bytes) records

/-! ## Fields -/

/-- What a field ends with that these bytes come after. -/
def endingOf : List UInt8 → Ending
  | [] => .file
  | b :: _ => if b = comma then .comma else .line

variable {bytes field after : List UInt8}

theorem quote_of_endsField {b : UInt8} (h : endsField b = true) :
    b ≠ quote := by
  rintro rfl
  exact absurd h (by decide)

theorem readPlain_end (hafter : ∀ b ∈ after.head?, endsField b = true) :
    readPlain after = ⟨[], endingOf after, after.take 1, after.drop 1⟩ := by
  cases after with
  | nil => rfl
  | cons b rest =>
      have hb := hafter b rfl
      rw [readPlain, endingOf]
      split
      · rfl
      · next hcomma =>
        rw [endsField, decide_eq_false hcomma, Bool.false_or] at hb
        rw [if_pos hb]
        rfl

theorem readPlain_append (hfree : ∀ b ∈ field, endsField b = false)
    (hafter : ∀ b ∈ after.head?, endsField b = true) :
    readPlain (field ++ after) =
      ⟨field, endingOf after, field ++ after.take 1, after.drop 1⟩ := by
  induction field with
  | nil => exact readPlain_end hafter
  | cons x tail ih =>
      have hx := hfree x (List.mem_cons_self ..)
      simp only [endsField, Bool.or_eq_false_iff, decide_eq_false_iff_not] at hx
      rw [List.cons_append, readPlain, if_neg hx.1, if_neg (by simp [hx.2]),
        ih fun y hy => hfree y (List.mem_cons_of_mem _ hy)]
      rfl

theorem readQuoted_cons_of_ne {x : UInt8} (hx : x ≠ quote) (hne : bytes ≠ []) :
    readQuoted (x :: bytes) = (readQuoted bytes).cons x := by
  obtain ⟨next, rest, rfl⟩ := List.exists_cons_of_ne_nil hne
  rw [readQuoted, if_neg hx]

/-- A quote that is not doubled closes the field. -/
theorem readQuoted_close (hafter : ∀ b ∈ after.head?, endsField b = true) :
    readQuoted (quote :: after) =
      ⟨[], endingOf after, quote :: after.take 1, after.drop 1⟩ := by
  cases after with
  | nil => rfl
  | cons b rest =>
      rw [readQuoted, if_pos rfl, if_neg (quote_of_endsField (hafter b rfl)),
        readPlain_end hafter]

theorem readQuoted_doubled (hafter : ∀ b ∈ after.head?, endsField b = true)
    (field : List UInt8) :
    readQuoted (doubled field ++ quote :: after) =
      ⟨field, endingOf after, doubled field ++ quote :: after.take 1,
        after.drop 1⟩ := by
  induction field with
  | nil => exact readQuoted_close hafter
  | cons x tail ih =>
      rw [doubled, List.flatMap_cons, ← doubled]
      split
      · next hx =>
        rw [List.append_assoc, List.cons_append, List.singleton_append,
          readQuoted, if_pos rfl, if_pos rfl, ih, hx]
        rfl
      · next hx =>
        rw [List.append_assoc, List.singleton_append,
          readQuoted_cons_of_ne hx (by simp), ih]
        rfl

theorem readField_of_spells (h : SpellsField bytes field) (after : List UInt8)
    (hafter : ∀ b ∈ after.head?, endsField b = true) :
    readField (bytes ++ after) =
      ⟨field, endingOf after, bytes ++ after.take 1, after.drop 1⟩ := by
  cases h with
  | quoted =>
      rw [List.cons_append, List.append_assoc, List.singleton_append,
        readField, if_pos rfl, readQuoted_doubled hafter]
      simp
  | plain hfree hopen =>
      rw [← readPlain_append hfree hafter]
      cases hall : bytes ++ after with
      | nil => rfl
      | cons b rest =>
          have hb : b ≠ quote := by
            rintro rfl
            cases bytes with
            | nil =>
                obtain rfl := hall
                exact quote_of_endsField (hafter quote rfl) rfl
            | cons x tail =>
                obtain rfl := (List.cons.inj hall).1
                exact hopen rfl
          rw [readField, if_neg hb]

/-! ## Records -/

theorem endsField_of_isLineEnd {b : UInt8} (h : isLineEnd b = true) :
    endsField b = true := by
  rw [endsField, h, Bool.or_true]

theorem readFields_of_spells {fields : List (List UInt8)}
    (h : SpellsRecord bytes fields) (after : List UInt8)
    (hafter : ∀ b ∈ after.head?, isLineEnd b = true) :
    readFields (bytes ++ after) =
      ⟨fields, bytes ++ after.take 1, after.drop 1⟩ := by
  induction h with
  | single hfield =>
      have hread := readField_of_spells hfield after fun b hb =>
        endsField_of_isLineEnd (hafter b hb)
      have hline : endingOf after ≠ .comma := by
        cases after with
        | nil => simp [endingOf]
        | cons b rest =>
            rw [endingOf, if_neg]
            · simp
            · rintro rfl
              exact absurd (hafter comma rfl) (by decide)
      rw [readFields, dif_neg (by rw [hread]; exact hline), hread]
  | @cons bytes field rest fields hfield _ ih =>
      have hread :=
        readField_of_spells hfield (comma :: (rest ++ after))
          (by simp [endsField])
      rw [List.append_assoc, List.cons_append, readFields,
        dif_pos (by rw [hread]; rfl)]
      simp only [hread, List.drop_succ_cons, List.drop_zero, ih]
      simp

/-- A record that has bytes does not begin with a line end. -/
theorem exists_head_of_spells {fields : List (List UInt8)}
    (h : SpellsRecord bytes fields) (hne : bytes ≠ []) :
    ∃ x tail, bytes = x :: tail ∧ isLineEnd x = false := by
  have hfield : ∀ {bytes field : List UInt8}, SpellsField bytes field →
      bytes ≠ [] →
      ∃ x tail, bytes = x :: tail ∧ isLineEnd x = false := by
    intro bytes field h hne
    cases h with
    | quoted => exact ⟨quote, _, rfl, by decide⟩
    | plain hfree _ =>
        obtain ⟨x, tail, rfl⟩ := List.exists_cons_of_ne_nil hne
        have hx := hfree x (List.mem_cons_self ..)
        rw [endsField, Bool.or_eq_false_iff] at hx
        exact ⟨x, tail, rfl, hx.2⟩
  cases h with
  | single h => exact hfield h hne
  | @cons bytes field rest fields h hrest =>
      by_cases hbytes : bytes = []
      · subst hbytes
        exact ⟨comma, rest, rfl, by decide⟩
      · obtain ⟨x, tail, rfl, hx⟩ := hfield h hbytes
        exact ⟨x, _, rfl, hx⟩

/-! ## Files -/

theorem readRecords_nil (position : Position) :
    readRecords position [] = [] := by
  rw [readRecords]
  rfl

theorem readRecords_cons {x : UInt8} {tail : List UInt8}
    (hx : isLineEnd x = false) (position : Position) :
    readRecords position (x :: tail) =
      ⟨position, (readFields (x :: tail)).fields⟩
        :: readRecords (position.after (readFields (x :: tail)).raw)
          (readFields (x :: tail)).rest := by
  have hblank : (x :: tail).takeWhile isLineEnd = [] := by
    rw [List.takeWhile_cons_of_neg (by simp [hx])]
  have hstart : (x :: tail).dropWhile isLineEnd = x :: tail := by
    rw [List.dropWhile_cons_of_neg (by simp [hx])]
  rw [readRecords]
  simp only [hblank, hstart, List.nil_append]
  rw [dif_neg (by simp)]

/-- Where a file begins makes no difference to the fields. -/
theorem fields_readRecords_congr (p q : Position) (bytes : List UInt8) :
    (readRecords p bytes).map (·.fields) =
      (readRecords q bytes).map (·.fields) := by
  fun_induction readRecords p bytes generalizing q with
  | case1 p bytes start hstart =>
      rw [readRecords, dif_pos hstart]
  | case2 p bytes blank start hstart record hlt ih =>
      conv_rhs => rw [readRecords, dif_neg hstart]
      exact congrArg (record.fields :: ·) (ih _)

theorem fields_readRecords_blank {b : UInt8} (hb : isLineEnd b = true)
    (p q : Position) (bytes : List UInt8) :
    (readRecords p (b :: bytes)).map (·.fields) =
      (readRecords q bytes).map (·.fields) := by
  rw [readRecords, readRecords]
  simp only [List.dropWhile_cons_of_pos hb]
  split
  · rfl
  · exact congrArg (_ :: ·) (fields_readRecords_congr _ _ _)

theorem fields_readRecords_of_spells {records : List (List (List UInt8))}
    (h : SpellsRecords bytes records) (position : Position) :
    (readRecords position bytes).map (·.fields) = records := by
  induction h generalizing position with
  | nil => rw [readRecords_nil]; rfl
  | blank hb _ ih => rw [fields_readRecords_blank hb position position, ih]
  | @single bytes fields h hne =>
      have hread := readFields_of_spells h [] (by simp)
      obtain ⟨x, tail, rfl, hx⟩ := exists_head_of_spells h hne
      rw [List.append_nil] at hread
      rw [readRecords_cons hx, hread, List.drop_nil, readRecords_nil]
      rfl
  | @cons b bytes rest fields records h hne hb _ ih =>
      have hread := readFields_of_spells h (b :: rest) (by simpa using hb)
      obtain ⟨x, tail, rfl, hx⟩ := exists_head_of_spells h hne
      rw [List.cons_append] at hread ⊢
      rw [readRecords_cons hx, hread, List.map_cons]
      exact congrArg (fields :: ·) (ih _)

/-- However a file spells its records, their fields are read. -/
theorem fields_records_of_spells {records : List (List (List UInt8))}
    (h : Spells bytes records) :
    (Csv.records bytes).map (·.fields) = records := by
  cases h with
  | plain h hmark =>
      rw [Csv.records, hmark]
      exact fields_readRecords_of_spells h _
  | @marked bytes records h =>
      have hmark :
          byteOrderMark.isPrefixOf? (byteOrderMark ++ bytes) = some bytes := by
        simp [byteOrderMark, List.isPrefixOf?]
      rw [Csv.records, hmark]
      exact fields_readRecords_of_spells h _

end BenchReport.Csv
