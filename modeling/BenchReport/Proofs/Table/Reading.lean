import BenchReport.Proofs.Outcome
import BenchReport.Proofs.Table.Fields
import BenchReport.Proofs.Text.Decoding

/-!
# Records read as rows

The fields of a record are taken one by one, each for the column of its place,
and a cell is filled at most once. What comes of the whole record does not
depend on the order: it is a row exactly if each column that is wanted has one
field and that field reads to the cell of the row. `Cells.readAll_eq_ok_iff`
says this of any cells to begin with, column by column, and that is what the
induction on the fields needs.

A column has one field if its name is found once in the header, and the field
is the one beside that name, since the names and the fields are as many.
-/

namespace BenchReport

/-- What a cell holds. -/
inductive CellValue where
  /-- A number of streams or threads. -/
  | count (n : UInt32)
  /-- A time. -/
  | time (x : Double)
deriving DecidableEq, Repr

namespace CellValue

/-- The value of a whole number that is read. -/
def ofCount : Except WholeError UInt32 → Except CellError CellValue
  | .ok n => .ok (.count n)
  | .error e => .error (.whole e)

/-- The value of a double that is read. -/
def ofTime : Except DoubleError Double → Except CellError CellValue
  | .ok x => .ok (.time x)
  | .error e => .error (.double e)

theorem ofCount_eq_ok_iff {x : Except WholeError UInt32} {n : UInt32} :
    ofCount x = .ok (.count n) ↔ x = .ok n := by
  cases x <;> simp [ofCount]

theorem ofTime_eq_ok_iff {x : Except DoubleError Double} {d : Double} :
    ofTime x = .ok (.time d) ↔ x = .ok d := by
  cases x <;> simp [ofTime]

end CellValue

/-- The value of a text in a column. -/
def Column.read : Column → List Char → Except CellError CellValue
  | .xstreams, text => CellValue.ofCount (Whole.readUInt32OrHex text)
  | .threads, text => CellValue.ofCount (Whole.readUInt32OrHex text)
  | .seconds, text => CellValue.ofTime (Double.read text)
  | .nanos, text => CellValue.ofTime (Double.read text)

/-- The cell of a row in a column. -/
def Timing.get (t : Timing) : Column → CellValue
  | .xstreams => .count t.xstreams
  | .threads => .count t.threads
  | .seconds => .time t.seconds
  | .nanos => .time t.nanos

/-! ## Cells -/

namespace Cells

/-- The cell of a column, if it has been read. -/
def get (cells : Cells) : Column → Option CellValue
  | .xstreams => cells.xstreams.map .count
  | .threads => cells.threads.map .count
  | .seconds => cells.seconds.map .time
  | .nanos => cells.nanos.map .time

variable {column : Column} {field : List Char}

/-- Cells are determined by what they hold in each column. -/
theorem ext_get {cells filled : Cells}
    (h : ∀ column, cells.get column = filled.get column) :
    cells = filled := by
  obtain ⟨xstreams, threads, seconds, nanos⟩ := cells
  obtain ⟨xstreams', threads', seconds', nanos'⟩ := filled
  have hcount : ∀ a b : Option UInt32, a.map CellValue.count =
      b.map CellValue.count → a = b :=
    fun a b hab => Option.map_injective (fun _ _ => CellValue.count.inj) hab
  have htime : ∀ a b : Option Double, a.map CellValue.time =
      b.map CellValue.time → a = b :=
    fun a b hab => Option.map_injective (fun _ _ => CellValue.time.inj) hab
  obtain rfl := hcount _ _ (h .xstreams)
  obtain rfl := hcount _ _ (h .threads)
  obtain rfl := htime _ _ (h .seconds)
  obtain rfl := htime _ _ (h .nanos)
  rfl

theorem has_eq (cells : Cells) (column : Column) :
    cells.has column = (cells.get column).isSome := by
  cases column <;> simp [has, get]

theorem get_empty (column : Column) : ({} : Cells).get column = none := by
  cases column <;> rfl

theorem insert_of_read_ok (cells : Cells) {value : CellValue}
    (h : column.read field = .ok value) :
    ∃ filled, cells.insert field column = .ok filled ∧
      filled.get column = some value ∧
      ∀ other, other ≠ column → filled.get other = cells.get other := by
  cases column with
  | xstreams | threads =>
      rw [Column.read] at h
      cases hread : Whole.readUInt32OrHex field with
      | error e => simp [hread, CellValue.ofCount] at h
      | ok n =>
          rw [hread] at h
          cases h
          simp only [insert, hread]
          refine ⟨_, rfl, rfl, fun other hother => ?_⟩
          cases other <;> first | contradiction | rfl
  | seconds | nanos =>
      rw [Column.read] at h
      cases hread : Double.read field with
      | error e => simp [hread, CellValue.ofTime] at h
      | ok x =>
          rw [hread] at h
          cases h
          simp only [insert, hread]
          refine ⟨_, rfl, rfl, fun other hother => ?_⟩
          cases other <;> first | contradiction | rfl

theorem insert_of_read_error (cells : Cells) {e : CellError}
    (h : column.read field = .error e) :
    cells.insert field column = .error e := by
  cases column with
  | xstreams | threads =>
      rw [Column.read] at h
      simp only [insert]
      cases hread : Whole.readUInt32OrHex field <;> rw [hread] at h <;> cases h
      rfl
  | seconds | nanos =>
      rw [Column.read] at h
      simp only [insert]
      cases hread : Double.read field <;> rw [hread] at h <;> cases h
      rfl

theorem complete_eq_ok_iff {cells : Cells} {t : Timing} :
    cells.complete = .ok t ↔
      ∀ column, cells.get column = some (t.get column) := by
  obtain ⟨xstreams, threads, seconds, nanos⟩ := cells
  constructor
  · intro h
    rw [complete] at h
    split at h <;> cases h
    intro column
    cases column <;> simp_all [get, Timing.get]
  · intro h
    have hxstreams := h .xstreams
    have hthreads := h .threads
    have hseconds := h .seconds
    have hnanos := h .nanos
    simp only [get, Timing.get, Option.map_eq_some_iff, CellValue.count.injEq,
      CellValue.time.injEq,
      exists_eq_right] at hxstreams hthreads hseconds hnanos
    rw [hxstreams, hthreads, hseconds, hnanos]
    rfl

end Cells

/-! ## The fields of a column -/

/-- The fields that are given for a column. -/
def Column.fields (column : Column) (pairs : List (Option Column × List Char)) :
    List (List Char) :=
  (pairs.filter (·.1 = some column)).map (·.2)

namespace Column

theorem fields_cons_self (column : Column) (field : List Char)
    (rest : List (Option Column × List Char)) :
    column.fields ((some column, field) :: rest) =
      field :: column.fields rest := by
  simp [fields]

theorem fields_cons_of_ne {column : Column} {found : Option Column}
    (h : found ≠ some column) (field : List Char)
    (rest : List (Option Column × List Char)) :
    column.fields ((found, field) :: rest) = column.fields rest := by
  simp [fields, h]

theorem ofName?_eq_some_iff {column : Column} {name : List Char} :
    ofName? name = some column ↔ name = column.name.toList := by
  constructor
  · intro h
    have hname := List.find?_some h
    exact (of_decide_eq_true hname).symm
  · rintro rfl
    cases column <;> decide

/-- The fields of a named column are those beside its name. -/
theorem fields_zip (column : Column) (names texts : List (List Char)) :
    column.fields ((names.map ofName?).zip texts) =
      ((names.zip texts).filter (·.1 = column.name.toList)).map (·.2) := by
  induction names generalizing texts with
  | nil => rfl
  | cons name rest ih =>
      cases texts with
      | nil => simp [fields]
      | cons text later =>
          by_cases hname : name = column.name.toList
          · have hcolumn : ofName? name = some column :=
              ofName?_eq_some_iff.2 hname
            rw [List.map_cons, List.zip_cons_cons, List.zip_cons_cons, hcolumn,
              fields_cons_self, ih,
              List.filter_cons_of_pos (by simpa using hname), List.map_cons]
          · have hcolumn : ofName? name ≠ some column :=
              fun h => hname (ofName?_eq_some_iff.1 h)
            rw [List.map_cons, List.zip_cons_cons, List.zip_cons_cons,
              fields_cons_of_ne hcolumn, ih,
              List.filter_cons_of_neg (by simpa using hname)]

theorem length_fields_zip (column : Column) {names texts : List (List Char)}
    (hlength : texts.length = names.length) :
    (column.fields ((names.map ofName?).zip texts)).length =
      names.count column.name.toList := by
  have hnames : (names.zip texts).map Prod.fst = names :=
    List.map_fst_zip (by omega)
  conv_rhs => rw [← hnames]
  rw [fields_zip, List.length_map, List.count_eq_countP, List.countP_map,
    List.countP_eq_length_filter]
  congr 2
  exact funext fun pair => (beq_eq_decide ..).symm

/-- A column has one field if its name is found once, and it is the one beside
the name. -/
theorem fields_zip_eq_singleton_iff {column : Column}
    {names texts : List (List Char)} (hlength : texts.length = names.length)
    {text : List Char} :
    column.fields ((names.map ofName?).zip texts) = [text] ↔
      names.count column.name.toList = 1 ∧
        (column.name.toList, text) ∈ names.zip texts := by
  rw [← length_fields_zip column hlength]
  have hmem : (column.name.toList, text) ∈ names.zip texts ↔
      text ∈ column.fields ((names.map ofName?).zip texts) := by
    rw [fields_zip]
    simp
  rw [hmem]
  constructor
  · intro h
    simp [h]
  · rintro ⟨hone, htext⟩
    obtain ⟨only, honly⟩ := List.length_eq_one_iff.1 hone
    rw [honly, List.mem_singleton] at htext
    rw [honly, htext]

end Column

/-! ## Rows -/

namespace Cells

theorem readAll_cons_none (cells : Cells) (index : Nat) (field : List Char)
    (rest : List (Option Column × List Char)) :
    cells.readAll index ((none, field) :: rest) =
      cells.readAll (index + 1) rest := by
  rw [readAll]

theorem readAll_cons_some {cells filled : Cells} {index : Nat} {column : Column}
    {field : List Char} {rest : List (Option Column × List Char)} :
    cells.readAll index ((some column, field) :: rest) = .ok filled ↔
      cells.get column = none ∧ ∃ between, cells.insert field column =
        .ok between ∧
        between.readAll (index + 1) rest = .ok filled := by
  rw [readAll, has_eq]
  cases hcell : cells.get column with
  | some value => simp
  | none =>
      cases hinsert : cells.insert field column with
      | error e => simp
      | ok between => simp

/-- A column either has no field, and its cell stays, or it has one field, which
reads, and its cell was empty. -/
theorem readAll_eq_ok_iff {cells filled : Cells} {index : Nat}
    {pairs : List (Option Column × List Char)} :
    cells.readAll index pairs = .ok filled ↔ ∀ column : Column,
      (column.fields pairs = [] ∧ filled.get column = cells.get column) ∨
      (cells.get column = none ∧ ∃ field value, column.fields pairs = [field] ∧
        column.read field = .ok value ∧ filled.get column = some value) := by
  -- each field changes the cells, so the claim is carried for all of them
  induction pairs generalizing cells index with
  | nil =>
      have hnone : ∀ column : Column, column.fields [] = [] := fun _ => rfl
      simp only [readAll, Except.ok.injEq, hnone, true_and,
        List.ne_cons_self, false_and, exists_false, and_false, or_false]
      exact ⟨fun h _ => by rw [h], fun h => (ext_get h).symm⟩
  | cons pair rest ih =>
      obtain ⟨found, field⟩ := pair
      cases found with
      | none =>
          rw [readAll_cons_none, ih]
          simp only [Column.fields_cons_of_ne (Option.some_ne_none _).symm]
      | some column =>
          rw [readAll_cons_some]
          constructor
          -- the cell of `column` is filled now, so the later fields have none
          -- for it
          · rintro ⟨hempty, between, hinsert, hrest⟩ other
            cases hread : column.read field with
            | error e =>
                cases hinsert.symm.trans (insert_of_read_error cells hread)
            | ok value =>
                obtain ⟨_, hok, hget, hframe⟩ := insert_of_read_ok cells hread
                cases hinsert.symm.trans hok
                rcases ih.1 hrest other with
                  ⟨hfields, hfilled⟩ | ⟨hnone, found, hone⟩
                · by_cases hother : other = column
                  · subst hother
                    refine .inr ⟨hempty, field, value, ?_, hread,
                      hfilled.trans hget⟩
                    rw [Column.fields_cons_self, hfields]
                  · rw [Column.fields_cons_of_ne
                      (by simpa using Ne.symm hother), ← hframe other hother]
                    exact .inl ⟨hfields, hfilled⟩
                · have hother : other ≠ column := by
                    rintro rfl
                    cases hget.symm.trans hnone
                  rw [Column.fields_cons_of_ne (by simpa using Ne.symm hother),
                    ← hframe other hother]
                  exact .inr ⟨hnone, found, hone⟩
          · intro h
            have hcolumn := h column
            rw [Column.fields_cons_self] at hcolumn
            obtain ⟨habsurd, -⟩ | ⟨hempty, only, value, honly, hread,
              hfilled⟩ := hcolumn
            · cases habsurd
            obtain ⟨rfl, hlater⟩ := List.cons.inj honly
            obtain ⟨between, hinsert, hget, hframe⟩ :=
              insert_of_read_ok cells hread
            refine ⟨hempty, between, hinsert, ih.2 fun other => ?_⟩
            by_cases hother : other = column
            · subst hother
              exact .inl ⟨hlater, hfilled.trans hget.symm⟩
            · have hfields := h other
              rw [Column.fields_cons_of_ne (by simpa using Ne.symm hother),
                ← hframe other hother] at hfields
              exact hfields

end Cells

namespace Table

/-- A row is made of one field for each column. -/
theorem row_eq_ok_iff {columns : List (Option Column)}
    {texts : List (List Char)} {t : Timing} :
    row (.named columns) texts = .ok t ↔ ∀ column : Column, ∃ text,
      column.fields (columns.zip texts) = [text] ∧
        column.read text = .ok (t.get column) := by
  have hrow : row (.named columns) texts = .ok t ↔
      ∃ cells, Cells.readAll {} 0 (columns.zip texts) = .ok cells ∧
        cells.complete = .ok t := by
    rw [row]
    cases hcells : Cells.readAll {} 0 (columns.zip texts) with
    | error e => simp
    | ok cells => cases hcomplete : cells.complete <;> simp [hcomplete]
  rw [hrow]
  constructor
  · rintro ⟨cells, hcells, hcomplete⟩ column
    have hget := Cells.complete_eq_ok_iff.1 hcomplete column
    rcases Cells.readAll_eq_ok_iff.1 hcells column with
      ⟨-, hnone⟩ | ⟨-, text, value, h⟩
    · rw [Cells.get_empty] at hnone
      cases hget.symm.trans hnone
    · obtain ⟨hfields, hread, hvalue⟩ := h
      cases hget.symm.trans hvalue
      exact ⟨text, hfields, hread⟩
  · intro h
    refine ⟨⟨some t.xstreams, some t.threads, some t.seconds, some t.nanos⟩, ?_,
      rfl⟩
    refine Cells.readAll_eq_ok_iff.2 fun column =>
      .inr ⟨Cells.get_empty column, ?_⟩
    obtain ⟨text, hfields, hread⟩ := h column
    refine ⟨text, t.get column, hfields, hread, ?_⟩
    cases column <;> rfl

/-! ## Files -/

theorem load_of_read {tree : FileTree} {directory : Path} {case : String}
    {bytes : List UInt8} (hread : tree.read (path directory case) = .ok bytes) :
    load tree directory case =
      match timings (Csv.records bytes) with
      | .ok rows => .ok ⟨case, rows⟩
      | .error fault => .error (.malformed (path directory case) fault) := by
  unfold load
  dsimp only
  cases htimings : timings (Csv.records bytes) with
  | ok rows =>
      rw [hread]
      dsimp only
      rw [htimings]
  | error fault =>
      rw [hread]
      dsimp only
      rw [htimings]

end Table

end BenchReport
