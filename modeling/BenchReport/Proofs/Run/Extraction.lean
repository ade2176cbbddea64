import BenchReport.Proofs.Outcome
import BenchReport.Run.Basic
import Mathlib.Data.List.Basic
import Mathlib.Data.List.TakeWhile

/-!
# What a log tells, by positions

The search for a field tries one place of the log after the other, and at each
place it takes the longest white space and the longest value without ever going
back. Here the field is described instead: it stands at a place if the text
there is its label, white space after each part, a value that does not go on,
and its ending. Nothing is said of how the white space is cut.

The two agree because there is only one way to cut it. No character of a value
is white space, and neither is the first character of a part of a label, so
white space ends where the description says that something else begins
(`LogField.Clear`); for the classes of characters this is a comparison of
tables. What follows is `LogField.value?_eq_some_iff`: the search finds the
value at the first position where the field stands, and nothing if it
stands nowhere.
-/

namespace BenchReport

/-! ## Classes of characters -/

namespace Text

theorem holds_iff {ranges : Ranges} {c : Char} :
    ranges.holds c = true ↔
      ∃ range ∈ ranges, range.1 ≤ c.toNat ∧ c.toNat ≤ range.2 := by
  simp only [Ranges.holds, List.any_eq_true, Bool.and_eq_true,
    decide_eq_true_eq]

/-- Whether no range of the one list meets a range of the other. -/
def Ranges.apart (first second : Ranges) : Bool :=
  first.all fun r => second.all fun s => r.2 < s.1 || s.2 < r.1

theorem not_holds_of_apart {first second : Ranges}
    (h : first.apart second = true) {c : Char} (hc : second.holds c = true) :
    first.holds c = false := by
  refine Bool.eq_false_iff.2 fun hfirst => ?_
  obtain ⟨r, hr, hlow, hhigh⟩ := holds_iff.1 hfirst
  obtain ⟨s, hs, hlow', hhigh'⟩ := holds_iff.1 hc
  have hapart := List.all_eq_true.1 (List.all_eq_true.1 h r hr) s hs
  simp only [Bool.or_eq_true, decide_eq_true_eq] at hapart
  omega

theorem isBlank_of_isWord {c : Char} (hc : isWord c = true) :
    isBlank c = false :=
  not_holds_of_apart (by decide +kernel) hc

theorem isBlank_of_isUnicodeDigit {c : Char} (hc : isDigit c = true) :
    isBlank c = false :=
  not_holds_of_apart (by decide +kernel) hc

end Text

/-! ## Fields at a position -/

namespace LogField

/-- Whether a text is the parts of a label, each with white space after it, and
then `rest`. -/
inductive Labelled (rest : List Char) : List String → List Char → Prop where
  | done : Labelled rest [] rest
  | part {part : String} {parts : List String} {blank later : List Char}
      (hne : blank ≠ []) (hblank : ∀ c ∈ blank, Text.isBlank c = true)
      (hlater : Labelled rest parts later) :
      Labelled rest (part :: parts) (part.toList ++ (blank ++ later))

/-- Whether all of the field stands at the beginning of a text, with this value:
the value has a character, does not go on, and has the ending after it. -/
def Begins (field : LogField) (text value : List Char) : Prop :=
  ∃ rest, Labelled (value ++ rest) field.label text ∧ value ≠ [] ∧
    (∀ c ∈ value, field.holds c = true) ∧
    (∀ c ∈ rest.head?, field.holds c = false) ∧
    field.ending.toList <+: rest

/-- Whether the position is the first one where the field stands, with this
value. -/
def FirstAt (field : LogField) (log : List Char) (i : Nat) (value : List Char) :
    Prop :=
  field.Begins (log.drop i) value ∧
    ∀ j < i, ∀ other, ¬ field.Begins (log.drop j) other

/-- Whether white space can only end where something else of the
field begins. -/
structure Clear (field : LogField) : Prop where
  label : ∀ part ∈ field.label, ∃ c rest, part.toList = c :: rest ∧
    Text.isBlank c = false
  holds : ∀ c, field.holds c = true → Text.isBlank c = false

/-! ## Labels -/

/-- Whether a text does not begin with white space. -/
def Solid (text : List Char) : Prop :=
  ∀ c ∈ text.head?, Text.isBlank c = false

theorem afterBlank?_eq_some_iff {cs rest : List Char} :
    afterBlank? cs = some rest ↔
      Solid rest ∧ ∃ blank, blank ≠ [] ∧ (∀ c ∈ blank, Text.isBlank c = true) ∧
        cs = blank ++ rest := by
  constructor
  · intro h
    cases cs with
    | nil => cases h
    | cons c later =>
        rw [afterBlank?] at h
        split at h
        · next hc =>
          obtain rfl := Option.some.inj h
          refine ⟨fun d hd => ?_, c :: later.takeWhile Text.isBlank, by simp,
            ?_, by simp⟩
          · have hhead := List.head?_dropWhile_not Text.isBlank later
            rw [Option.mem_def.1 hd] at hhead
            exact hhead
          · refine List.forall_mem_cons.2 ⟨hc, fun d hd => ?_⟩
            exact List.mem_takeWhile_imp hd
        · cases h
  · rintro ⟨hsolid, blank, hne, hblank, rfl⟩
    obtain ⟨c, later, rfl⟩ := List.exists_cons_of_ne_nil hne
    obtain ⟨hc, hlater⟩ := List.forall_mem_cons.1 hblank
    rw [List.cons_append, afterBlank?, if_pos hc,
      List.dropWhile_append_of_pos hlater]
    cases rest with
    | nil => rfl
    | cons d rest => rw [List.dropWhile_cons_of_neg (by simp [hsolid d rfl])]

variable {field : LogField}

theorem labelled_of_afterLabel? {parts : List String} {cs rest : List Char}
    (h : afterLabel? parts cs = some rest) : Labelled rest parts cs := by
  induction parts generalizing cs with
  | nil =>
      obtain rfl := Option.some.inj h
      exact .done
  | cons part parts ih =>
      obtain ⟨later, hlater, hafter⟩ := Option.bind_eq_some_iff.1 h
      obtain ⟨cs', hpart, hblank⟩ := Option.bind_eq_some_iff.1 hlater
      obtain rfl := List.isPrefixOf?_eq_some_iff_append_eq.1 hpart
      obtain ⟨-, blank, hne, hall, rfl⟩ := afterBlank?_eq_some_iff.1 hblank
      exact .part hne hall (ih hafter)

theorem afterLabel?_of_labelled {parts : List String} {cs rest : List Char}
    (hparts : ∀ part ∈ parts, ∃ c later, part.toList = c :: later ∧
      Text.isBlank c = false)
    (hrest : Solid rest) (h : Labelled rest parts cs) :
    afterLabel? parts cs = some rest ∧ Solid cs := by
  induction h with
  | done => exact ⟨rfl, hrest⟩
  | @part part parts blank later hne hblank hlater ih =>
      obtain ⟨⟨c, tail, hpart, hc⟩, hparts⟩ := List.forall_mem_cons.1 hparts
      obtain ⟨hafter, hsolid⟩ := ih hparts
      have hspace : afterBlank? (blank ++ later) = some later :=
        afterBlank?_eq_some_iff.2 ⟨hsolid, blank, hne, hblank, rfl⟩
      constructor
      · rw [afterLabel?, List.isPrefixOf?_eq_some_iff_append_eq.2 rfl,
          Option.bind_some, hspace, Option.bind_some, hafter]
      · rintro d hd
        rw [hpart] at hd
        obtain rfl := Option.some.inj hd
        exact hc

theorem afterLabel?_eq_some_iff (hfield : field.Clear) {cs rest : List Char}
    (hrest : Solid rest) :
    afterLabel? field.label cs = some rest ↔ Labelled rest field.label cs :=
  ⟨labelled_of_afterLabel?, fun h =>
    (afterLabel?_of_labelled hfield.label hrest h).1⟩

/-! ## Values -/

theorem begins_of_valueHere? {text value : List Char}
    (h : field.valueHere? text = some value) :
    field.Begins text value := by
  rw [valueHere?] at h
  split at h
  · cases h
  · next rest hlabel =>
    dsimp only at h
    split at h
    · next hvalue =>
      obtain rfl := Option.some.inj h
      simp only [Bool.and_eq_true, Bool.not_eq_true', List.isEmpty_eq_false_iff,
        List.isPrefixOf_iff_prefix] at hvalue
      refine ⟨rest.dropWhile field.holds, ?_, hvalue.1, fun c hc => ?_,
        fun c hc => ?_, hvalue.2⟩
      · rw [List.takeWhile_append_dropWhile]
        exact labelled_of_afterLabel? hlabel
      · exact List.mem_takeWhile_imp hc
      · have hhead := List.head?_dropWhile_not field.holds rest
        rw [Option.mem_def.1 hc] at hhead
        exact hhead
    · cases h

theorem takeWhile_of_head? {rest : List Char}
    (h : ∀ c ∈ rest.head?, field.holds c = false) :
    rest.takeWhile field.holds = [] ∧ rest.dropWhile field.holds = rest := by
  cases rest with
  | nil => exact ⟨rfl, rfl⟩
  | cons c later =>
      have hc : ¬ field.holds c = true := by simp [h c rfl]
      exact ⟨List.takeWhile_cons_of_neg hc, List.dropWhile_cons_of_neg hc⟩

theorem valueHere?_of_begins (hfield : field.Clear) {text value : List Char}
    (h : field.Begins text value) : field.valueHere? text = some value := by
  obtain ⟨rest, hlabel, hne, hvalue, hrest, hending⟩ := h
  obtain ⟨c, later, rfl⟩ := List.exists_cons_of_ne_nil hne
  have hsolid : Solid (c :: later ++ rest) := by
    rintro d hd
    obtain rfl := Option.some.inj hd
    exact hfield.holds _ (hvalue _ (List.mem_cons_self ..))
  obtain ⟨htake, hdrop⟩ := takeWhile_of_head? hrest
  rw [valueHere?, (afterLabel?_eq_some_iff hfield hsolid).2 hlabel]
  dsimp only
  rw [List.takeWhile_append_of_pos hvalue, List.dropWhile_append_of_pos hvalue,
    htake, hdrop, List.append_nil, if_pos]
  rw [List.isPrefixOf_iff_prefix.2 hending]
  rfl

theorem valueHere?_eq_some_iff (hfield : field.Clear) {text value : List Char} :
    field.valueHere? text = some value ↔ field.Begins text value :=
  ⟨begins_of_valueHere?, valueHere?_of_begins hfield⟩

theorem ne_nil_of_labelled {rest text : List Char} {parts : List String}
    (h : Labelled rest parts text) (hrest : rest ≠ []) : text ≠ [] := by
  cases h with
  | done => exact hrest
  | part hne _ _ => simp [hne]

theorem not_begins_nil {value : List Char} : ¬ field.Begins [] value := by
  rintro ⟨rest, hlabel, hne, -⟩
  exact ne_nil_of_labelled hlabel (by simp [hne]) rfl

theorem Begins.unique (hfield : field.Clear) {text value other : List Char}
    (h : field.Begins text value) (hother : field.Begins text other) :
    value = other := by
  rw [← valueHere?_eq_some_iff hfield] at h hother
  exact Option.some.inj (h.symm.trans hother)

/-! ## First positions -/

theorem firstAt_zero {log value : List Char} :
    field.FirstAt log 0 value ↔ field.Begins log value := by
  rw [FirstAt, List.drop_zero]
  exact and_iff_left fun j hj => absurd hj (Nat.not_lt_zero j)

theorem firstAt_cons_succ {c : Char} {log value : List Char} {i : Nat} :
    field.FirstAt (c :: log) (i + 1) value ↔
      (∀ other, ¬ field.Begins (c :: log) other) ∧
        field.FirstAt log i value := by
  constructor
  · rintro ⟨hbegins, hbefore⟩
    refine ⟨hbefore 0 (Nat.succ_pos i), hbegins, fun j hj => ?_⟩
    exact hbefore (j + 1) (Nat.succ_lt_succ hj)
  · rintro ⟨hhere, hbegins, hbefore⟩
    refine ⟨hbegins, fun j hj => ?_⟩
    cases j with
    | zero => exact hhere
    | succ j => exact hbefore j (Nat.lt_of_succ_lt_succ hj)

/-- The search finds what stands at the first position, and only that. -/
theorem value?_eq_some_iff (hfield : field.Clear) {log value : List Char} :
    field.value? log = some value ↔ ∃ i, field.FirstAt log i value := by
  induction log with
  | nil =>
      rw [value?]
      constructor
      · intro h
        cases h
      · rintro ⟨i, hbegins, -⟩
        rw [List.drop_nil] at hbegins
        exact absurd hbegins not_begins_nil
  | cons c log ih =>
      rw [value?]
      split
      · next found hfound =>
        have hhere := (valueHere?_eq_some_iff hfield).1 hfound
        constructor
        · intro h
          obtain rfl := Option.some.inj h
          exact ⟨0, firstAt_zero.2 hhere⟩
        · rintro ⟨i, hfirst⟩
          cases i with
          | zero => rw [Begins.unique hfield hhere (firstAt_zero.1 hfirst)]
          | succ i => exact absurd hhere ((firstAt_cons_succ.1 hfirst).1 found)
      · next hnone =>
        have hnowhere : ∀ other, ¬ field.Begins (c :: log) other :=
          fun other hother => by
            rw [← valueHere?_eq_some_iff hfield, hnone] at hother
            cases hother
        rw [ih]
        constructor
        · rintro ⟨i, hfirst⟩
          exact ⟨i + 1, firstAt_cons_succ.2 ⟨hnowhere, hfirst⟩⟩
        · rintro ⟨i, hfirst⟩
          cases i with
          | zero => exact absurd (firstAt_zero.1 hfirst) (hnowhere value)
          | succ i => exact ⟨i, (firstAt_cons_succ.1 hfirst).2⟩

theorem FirstAt.unique (hfield : field.Clear) {log value other : List Char}
    {i j : Nat} (h : field.FirstAt log i value)
    (hother : field.FirstAt log j other) :
    i = j ∧ value = other := by
  rcases Nat.lt_trichotomy i j with hlt | rfl | hlt
  · exact absurd h.1 (hother.2 i hlt value)
  · exact ⟨rfl, h.1.unique hfield hother.1⟩
  · exact absurd hother.1 (h.2 j hlt other)

/-- An occurrence that breaks off before does not hide one that is whole. -/
theorem exists_firstAt {log value : List Char} {i : Nat}
    (h : field.Begins (log.drop i) value) :
    ∃ j ≤ i, ∃ first, field.FirstAt log j first := by
  induction i using Nat.strongRecOn generalizing value with
  | ind i ih =>
      by_cases hbefore : ∀ j < i, ∀ other, ¬ field.Begins (log.drop j) other
      · exact ⟨i, Nat.le_refl i, value, h, hbefore⟩
      · simp only [not_forall, not_not] at hbefore
        obtain ⟨j, hj, other, hother⟩ := hbefore
        obtain ⟨first, hle, hfirst⟩ := ih j hj hother
        exact ⟨first, Nat.le_trans hle (Nat.le_of_lt hj), hfirst⟩

/-! ## The fields of a log -/

theorem isBlank_of_isFractional {c : Char} (hc : isFractional c = true) :
    Text.isBlank c = false := by
  rw [isFractional, Bool.or_eq_true, decide_eq_true_eq] at hc
  rcases hc with hc | rfl
  · exact Text.isBlank_of_isUnicodeDigit hc
  · rfl

theorem clear_problemClass : problemClass.Clear where
  label := List.forall_mem_cons.2 ⟨⟨_, _, rfl, rfl⟩,
    List.forall_mem_singleton.2 ⟨_, _, rfl, rfl⟩⟩
  holds _ := Text.isBlank_of_isWord

theorem clear_xstreams : xstreams.Clear where
  label := List.forall_mem_singleton.2 ⟨_, _, rfl, rfl⟩
  holds _ := Text.isBlank_of_isUnicodeDigit

theorem clear_threads : threads.Clear where
  label := List.forall_mem_singleton.2 ⟨_, _, rfl, rfl⟩
  holds _ := Text.isBlank_of_isUnicodeDigit

theorem clear_initializationTime : initializationTime.Clear where
  label := List.forall_mem_singleton.2 ⟨_, _, rfl, rfl⟩
  holds _ := isBlank_of_isFractional

theorem clear_elapsed : elapsed.Clear where
  label := List.forall_mem_singleton.2 ⟨_, _, rfl, rfl⟩
  holds _ := isBlank_of_isFractional

/-- The fields of a log. -/
def all : List LogField :=
  [problemClass, xstreams, threads, initializationTime, elapsed]

theorem clear_of_mem_all : ∀ field ∈ all, field.Clear := by
  intro field hfield
  simp only [all, List.mem_cons, List.not_mem_nil, or_false] at hfield
  rcases hfield with rfl | rfl | rfl | rfl | rfl
  · exact clear_problemClass
  · exact clear_xstreams
  · exact clear_threads
  · exact clear_initializationTime
  · exact clear_elapsed

end LogField

theorem Setting.eq_of_fields {a b : Setting}
    (hclass : a.problemClass = b.problemClass)
    (hxstreams : a.xstreams = b.xstreams) (hthreads : a.threads = b.threads) :
    a = b := by
  cases a
  cases b
  rw [Setting.mk.injEq]
  exact ⟨hclass, hxstreams, hthreads⟩

namespace Run

/-! ## Runs -/

theorem occurs_iff {word log : List Char} :
    occurs word log = true ↔ word <:+: log := by
  induction log with
  | nil => rw [occurs, List.isEmpty_iff, List.infix_nil]
  | cons c rest ih =>
      rw [occurs, Bool.or_eq_true, ih, List.isPrefixOf_iff_prefix,
        List.infix_cons_iff]

/-- Whether the field of a log holds a value: it does at the first position
where it stands, and the text there is read as the value. -/
def Tells {α ε : Type} (field : LogField) (read : List Char → Except ε α)
    (log : List Char) (value : α) : Prop :=
  ∃ i text, field.FirstAt log i text ∧ read text = .ok value

theorem bind_toOption_eq_some_iff {α ε : Type} {field : LogField}
    (hfield : field.Clear) {read : List Char → Except ε α} {log : List Char}
    {value : α} :
    ((field.value? log).bind fun text => (read text).toOption) = some value ↔
      Tells field read log value := by
  rw [Option.bind_eq_some_iff]
  constructor
  · rintro ⟨text, htext, hread⟩
    obtain ⟨i, hfirst⟩ := (LogField.value?_eq_some_iff hfield).1 htext
    exact ⟨i, text, hfirst, toOption_eq_some_iff.1 hread⟩
  · rintro ⟨i, text, hfirst, hread⟩
    exact ⟨text, (LogField.value?_eq_some_iff hfield).2 ⟨i, hfirst⟩,
      toOption_eq_some_iff.2 hread⟩

/-- Whether the run is what the fields of a log tell, each by itself. -/
structure IsTold (run : Run) (log : List Char) : Prop where
  problemClass : ∀ name, run.setting.problemClass = some name ↔
    ∃ i, LogField.problemClass.FirstAt log i name.toList
  xstreams : ∀ n, run.setting.xstreams = some n ↔
    Tells LogField.xstreams Whole.readUInt32 log n
  threads : ∀ n, run.setting.threads = some n ↔
    Tells LogField.threads Whole.readUInt32 log n
  initializationTime : ∀ x, run.initializationTime = some x ↔
    Tells LogField.initializationTime Double.read log x
  elapsed : Tells LogField.elapsed Double.read log run.elapsed

variable {log : List Char}

theorem problemClass_settingOf {name : String} :
    (settingOf log).problemClass = some name ↔
      ∃ i, LogField.problemClass.FirstAt log i name.toList := by
  rw [← LogField.value?_eq_some_iff LogField.clear_problemClass]
  show (LogField.problemClass.value? log).map String.ofList = some name ↔ _
  rw [Option.map_eq_some_iff]
  constructor
  · rintro ⟨text, htext, rfl⟩
    rw [htext, String.toList_ofList]
  · intro h
    exact ⟨_, h, String.ofList_toList⟩

theorem seconds?_eq_some_iff {field : LogField} (hfield : field.Clear)
    {x : Double} :
    seconds? field log = some x ↔ Tells field Double.read log x :=
  bind_toOption_eq_some_iff hfield

theorem count?_eq_some_iff {field : LogField} (hfield : field.Clear)
    {n : UInt32} :
    count? field log = some n ↔ Tells field Whole.readUInt32 log n :=
  bind_toOption_eq_some_iff hfield

theorem isTold_iff {run : Run} :
    run.IsTold log ↔ run.setting = settingOf log ∧
      run.initializationTime = seconds? .initializationTime log ∧
      seconds? .elapsed log = some run.elapsed := by
  constructor
  · rintro ⟨hclass, hxstreams, hthreads, hinitialization, helapsed⟩
    refine ⟨?_, Option.ext fun x => ?_,
      (seconds?_eq_some_iff LogField.clear_elapsed).2 helapsed⟩
    · have hclass' : run.setting.problemClass = (settingOf log).problemClass :=
        Option.ext fun name => (hclass name).trans problemClass_settingOf.symm
      have hxstreams' : run.setting.xstreams = (settingOf log).xstreams :=
        Option.ext fun n =>
        (hxstreams n).trans (count?_eq_some_iff LogField.clear_xstreams).symm
      have hthreads' : run.setting.threads = (settingOf log).threads :=
        Option.ext fun n =>
        (hthreads n).trans (count?_eq_some_iff LogField.clear_threads).symm
      exact Setting.eq_of_fields hclass' hxstreams' hthreads'
    · rw [hinitialization,
        seconds?_eq_some_iff LogField.clear_initializationTime]
  · rintro ⟨hsetting, hinitialization, helapsed⟩
    refine ⟨fun name => ?_, fun n => ?_, fun n => ?_, fun x => ?_,
      (seconds?_eq_some_iff LogField.clear_elapsed).1 helapsed⟩
    · rw [hsetting]
      exact problemClass_settingOf
    · rw [hsetting]
      exact count?_eq_some_iff LogField.clear_xstreams
    · rw [hsetting]
      exact count?_eq_some_iff LogField.clear_threads
    · rw [hinitialization]
      exact seconds?_eq_some_iff LogField.clear_initializationTime

theorem ofLog_eq_ok_iff {run : Run} :
    ofLog log = .ok run ↔
      verificationMarker.toList <:+: log ∧ run.IsTold log := by
  rw [isTold_iff, ← occurs_iff, ofLog]
  split
  · next hverified =>
    rw [and_iff_right hverified]
    cases helapsed : seconds? .elapsed log with
    | none => simp
    | some elapsed =>
        constructor
        · intro h
          obtain rfl := Except.ok.inj h
          exact ⟨rfl, rfl, rfl⟩
        · rintro ⟨hsetting, hinitialization, hseconds⟩
          rw [← hsetting, ← hinitialization, Option.some.inj hseconds]
  · next hunverified => simp [hunverified]

/-- What a log tells. It is of no use without the marker, wherever the fields
stand, and of no use without an elapsed time; else every field is what it tells
at the first position where all of it stands. -/
theorem ofLog_told (log : List Char) :
    (ofLog log = .error .unverified ↔ ¬ verificationMarker.toList <:+: log) ∧
    (ofLog log = .error .missingElapsedTime ↔
      verificationMarker.toList <:+: log ∧ ∀ x,
        ¬ Tells LogField.elapsed Double.read log x) ∧
    (∀ run, ofLog log = .ok run ↔
      verificationMarker.toList <:+: log ∧ run.IsTold log) ∧
    ∀ field ∈ LogField.all,
      (∀ i text, field.Begins (log.drop i) text →
        ∃ j ≤ i, ∃ first, field.FirstAt log j first) ∧
      ∀ i j text other, field.FirstAt log i text → field.FirstAt log j other →
        i = j ∧ text = other := by
  refine ⟨?_, ?_, fun run => ofLog_eq_ok_iff, fun field hfield => ⟨?_, ?_⟩⟩
  · rw [← occurs_iff, ofLog]
    split
    · next hverified =>
      split <;> simp [hverified]
    · next hunverified => simp [hunverified]
  · simp only [← seconds?_eq_some_iff LogField.clear_elapsed,
      ← Option.eq_none_iff_forall_ne_some]
    rw [← occurs_iff, ofLog]
    split
    · next hverified =>
      split
      · next hnone => simp [hverified, hnone]
      · next hsome => simp [hsome]
    · next hunverified => simp [hunverified]
  · exact fun i text hbegins => LogField.exists_firstAt hbegins
  · exact fun i j text other hfirst hother =>
      hfirst.unique (LogField.clear_of_mem_all field hfield) hother

end Run

end BenchReport
