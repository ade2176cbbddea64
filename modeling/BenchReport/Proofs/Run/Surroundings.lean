import BenchReport.LogFile.Basic
import BenchReport.Proofs.Run.Extraction
import BenchReport.Proofs.Text.Lossy
import Mathlib.Data.List.Infix

/-!
# A log among other lines

A log is still found when other lines stand around it, and whatever their bytes
are. Lossy decoding keeps the three parts apart at the line feeds between them,
so this is about texts, and about what could reach from one line into the next.

Of a field only white space can. Its words, its value and its ending hold no
line feed (`LogField.Contained`). So a field that begins in the lines before has
its first word there, which is what those lines must not hold.

The lines after the log are harder, since they may hold anything, and a field of
the log could end in them, before any field that is whole. It would take up the
rest of the log, down to the line feed, with its label and white space. But then
no field of the same kind can begin later in the log, for a label begins with a
character that it has nowhere else (`LogField.Begins.append_cases`). What is
first in the log stays first.
-/

namespace BenchReport

/-! ## Words and separators -/

section Separator

variable {α : Type} {sep : α} {word : List α}

theorem prefix_append_cons_iff (hword : sep ∉ word) (before after : List α) :
    word <+: before ++ sep :: after ↔ word <+: before := by
  constructor
  · intro h
    rcases List.prefix_or_prefix_of_prefix h (List.prefix_append before _) with
      hle | ⟨more, rfl⟩
    · exact hle
    · rw [List.prefix_append_right_inj] at h
      cases more with
      | nil =>
          rw [List.append_nil]
      | cons c more =>
          rw [(List.cons_prefix_cons.1 h).1] at hword
          exact absurd (List.mem_append_right _ (List.mem_cons_self ..)) hword
  · exact fun h => h.trans (List.prefix_append _ _)

theorem infix_append_cons_iff (hword : sep ∉ word) (before after : List α) :
    word <:+: before ++ sep :: after ↔ word <:+: before ∨ word <:+: after := by
  induction before with
  | nil =>
      have hprefix := prefix_append_cons_iff hword [] after
      rw [List.nil_append, List.prefix_nil] at hprefix
      rw [List.nil_append, List.infix_cons_iff, hprefix, List.infix_nil]
  | cons c rest ih =>
      rw [List.cons_append, List.infix_cons_iff, ← List.cons_append,
        prefix_append_cons_iff hword, ih, List.infix_cons_iff, or_assoc]

end Separator

namespace LogField

/-- Whether only the white space of a field can reach across a line feed, and
its label begins with a character that the label has just once. -/
structure Contained (field : LogField) : Prop where
  label : ∀ word ∈ field.label, '\n' ∉ word.toList
  holds : field.holds '\n' = false
  ending : '\n' ∉ field.ending.toList
  start :
    ∃ c word words, field.label = word :: words ∧ word.toList.head? = some c ∧
    Text.isBlank c = false ∧ (field.label.flatMap String.toList).count c = 1

/-- The words that labels begin with. -/
def openings : List String :=
  all.filterMap (·.label.head?)

theorem openings_eq : openings = ["Class", "Number of available xstreams:",
    "Number of available threads:", "Initialization time =",
      "Time in seconds ="] := rfl

variable {field : LogField} {log text later value : List Char} {word : String}

theorem contained_of_mem_all : ∀ field ∈ all, field.Contained := by
  intro field hfield
  simp only [all, List.mem_cons, List.not_mem_nil, or_false] at hfield
  rcases hfield with rfl | rfl | rfl | rfl | rfl
  · exact ⟨by decide, by decide +kernel, by decide, 'C', _, _, rfl, rfl,
      rfl, by decide⟩
  · exact ⟨by decide, by decide +kernel, by decide, 'N', _, _, rfl, rfl,
      rfl, by decide⟩
  · exact ⟨by decide, by decide +kernel, by decide, 'N', _, _, rfl, rfl,
      rfl, by decide⟩
  · exact ⟨by decide, by decide +kernel, by decide, 'I', _, _, rfl, rfl,
      rfl, by decide⟩
  · exact ⟨by decide, by decide +kernel, by decide, 'T', _, _, rfl, rfl,
      rfl, by decide⟩

theorem exists_opening (hfield : field ∈ all) :
    ∃ word ∈ openings, field.label.head? = some word := by
  obtain ⟨c, word, words, hlabel, -⟩ :=
    (contained_of_mem_all field hfield).start
  have hhead : field.label.head? = some word := by rw [hlabel, List.head?_cons]
  exact ⟨word, List.mem_filterMap.2 ⟨field, hfield, hhead⟩, hhead⟩

/-! ## Lines before a log -/

theorem prefix_of_valueHere? (hword : field.label.head? = some word)
    (h : field.valueHere? text = some value) : word.toList <+: text := by
  obtain ⟨rest, hlabel, -⟩ := begins_of_valueHere? h
  obtain ⟨words, hwords⟩ := List.head?_eq_some_iff.1 hword
  rw [hwords] at hlabel
  cases hlabel with
  | part _ _ _ => exact List.prefix_append _ _

theorem value?_of_not_prefix {c : Char} (hword : field.label.head? = some word)
    (h : ¬ word.toList <+: c :: text) :
    field.value? (c :: text) = field.value? text := by
  have hnone : field.valueHere? (c :: text) = none :=
    Option.eq_none_iff_forall_ne_some.2 fun value hvalue =>
      h (prefix_of_valueHere? hword hvalue)
  rw [value?, hnone]

/-- Lines that do not hold the first word of a label do not hold the field. -/
theorem value?_of_lines_before (hfield : field.Contained)
    (hword : field.label.head? = some word) {noise : List Char}
    (hnoise : ¬ word.toList <:+: noise) (log : List Char) :
    field.value? (noise ++ '\n' :: log) = field.value? log := by
  have hfeed : '\n' ∉ word.toList :=
    hfield.label word (List.mem_of_mem_head? hword)
  induction noise with
  | nil =>
      refine value?_of_not_prefix hword fun hprefix => hnoise ?_
      exact ((prefix_append_cons_iff hfeed [] log).1 hprefix).isInfix
  | cons c rest ih =>
      rw [List.infix_cons_iff, not_or] at hnoise
      rw [List.cons_append, value?_of_not_prefix hword, ih hnoise.2]
      rw [← List.cons_append, prefix_append_cons_iff hfeed]
      exact hnoise.1

/-! ## Lines after a log -/

theorem Labelled.append {rest : List Char} {words : List String}
    (h : Labelled rest words text) (more : List Char) :
    Labelled (rest ++ more) words (text ++ more) := by
  induction h with
  | done => exact .done
  | part hne hblank _ ih =>
      rw [List.append_assoc, List.append_assoc]
      exact .part hne hblank ih

/-- A label either ends before a line feed of the text, or all before the line
feed is of the label or white space. -/
theorem Labelled.append_cases {rest : List Char} {words : List String}
    (h : Labelled rest words (text ++ '\n' :: later)) :
    (∃ inner, rest = inner ++ '\n' :: later ∧ Labelled inner words text) ∨
      ∀ c, Text.isBlank c = false →
        text.count c ≤ (words.flatMap String.toList).count c := by
  have hblanks {blank : List Char} (hblank : ∀ c ∈ blank, Text.isBlank c = true)
      {c : Char}
      (hc : Text.isBlank c = false) : blank.count c = 0 := by
    refine List.count_eq_zero.2 fun hmem => ?_
    rw [hblank c hmem] at hc
    cases hc
  generalize hwhole : text ++ '\n' :: later = whole at h
  induction h generalizing text with
  | done => exact .inl ⟨text, hwhole.symm, .done⟩
  | @part word words blank rest' hne hblank hrest ih =>
      rcases List.append_eq_append_iff.1 hwhole with
        ⟨more, hword, -⟩ | ⟨more, rfl, hmore⟩
      · refine .inr fun c _ => ?_
        have hle : text.count c ≤ word.toList.count c :=
          hword ▸ (List.sublist_append_left text more).count_le c
        rw [List.flatMap_cons, List.count_append]
        omega
      · rcases List.append_eq_append_iff.1 hmore with
          ⟨last, rfl, hlast⟩ | ⟨last, hcut, -⟩
        · rcases ih hlast.symm with ⟨inner, hinner, hlabel⟩ | hcount
          · exact .inl ⟨inner, hinner, .part hne hblank hlabel⟩
          · refine .inr fun c hc => ?_
            have hlater := hcount c hc
            rw [List.flatMap_cons, List.count_append, List.count_append,
              List.count_append, hblanks hblank hc]
            omega
        · refine .inr fun c hc => ?_
          have hmoreBlank : ∀ d ∈ more, Text.isBlank d = true := fun d hd =>
            hblank d (hcut ▸ List.mem_append_left _ hd)
          rw [List.flatMap_cons, List.count_append, List.count_append,
            hblanks hmoreBlank hc]
          omega

theorem Begins.append (hfield : field.Contained) (h : field.Begins text value)
    (later : List Char) : field.Begins (text ++ '\n' :: later) value := by
  obtain ⟨rest, hlabel, hne, hvalue, hrest, hending⟩ := h
  refine ⟨rest ++ '\n' :: later, ?_, hne, hvalue, ?_,
    hending.trans (List.prefix_append _ _)⟩
  · rw [← List.append_assoc]
    exact hlabel.append _
  · cases rest with
    | nil =>
        intro c hc
        obtain rfl := Option.some.inj hc
        exact hfield.holds
    | cons d rest => exact hrest

/-- A field that begins before a line feed is whole there, or all before the
line feed is of its label or white space. -/
theorem Begins.append_cases (hfield : field.Contained)
    (h : field.Begins (text ++ '\n' :: later) value) :
    field.Begins text value ∨ ∀ c, Text.isBlank c = false →
      text.count c ≤ (field.label.flatMap String.toList).count c := by
  obtain ⟨rest, hlabel, hne, hvalue, hrest, hending⟩ := h
  refine hlabel.append_cases.imp_left fun ⟨inner, hinner, hlabelled⟩ => ?_
  -- the line feed is no character of the value, so it comes after it
  have hfeed : '\n' ∉ value := fun hmem =>
    Bool.false_ne_true (hfield.holds.symm.trans (hvalue _ hmem))
  have hprefix : value <+: inner ++ '\n' :: later :=
    hinner ▸ List.prefix_append value rest
  obtain ⟨inside, rfl⟩ := (prefix_append_cons_iff hfeed inner later).1 hprefix
  rw [List.append_assoc] at hinner
  obtain rfl := List.append_cancel_left hinner
  refine ⟨inside, hlabelled, hne, hvalue, fun c hc => hrest c ?_, ?_⟩
  · rw [Option.mem_def] at hc ⊢
    rw [List.head?_append, hc]
    rfl
  · exact (prefix_append_cons_iff hfield.ending inside later).1 hending

/-- What is first in a log stays first when lines come after it. -/
theorem FirstAt.append (hfield : field.Contained) {i : Nat}
    (h : field.FirstAt log i value) (later : List Char) :
    field.FirstAt (log ++ '\n' :: later) i value := by
  obtain ⟨hbegins, hbefore⟩ := h
  obtain ⟨c, word, words, hlabel, hhead, hblank, hcount⟩ := hfield.start
  have hstart {text value : List Char} (htext : field.Begins text value) :
      text.head? = some c := by
    obtain ⟨rest, htext, -⟩ := htext
    rw [hlabel] at htext
    cases htext with
    | part _ _ _ => rw [List.head?_append, hhead]; rfl
  have hlength : i < log.length := by
    by_contra hge
    rw [List.drop_eq_nil_of_le (Nat.le_of_not_lt hge)] at hbegins
    cases hstart hbegins
  have hdrop {j : Nat} (hj : j ≤ i) : (log ++ '\n' :: later).drop j =
      log.drop j ++ '\n' :: later :=
    List.drop_append_of_le_length (Nat.le_trans hj (Nat.le_of_lt hlength))
  refine ⟨?_, fun j hj other hother => ?_⟩
  · rw [hdrop (Nat.le_refl i)]
    exact hbegins.append hfield later
  · rw [hdrop (Nat.le_of_lt hj)] at hother
    -- the first character of the label is at `j`, and again at `i`
    have htwice : 2 ≤ (log.drop j).count c := by
      have hlog : log.drop j = log[j] :: log.drop (j + 1) :=
        List.drop_eq_getElem_cons (by omega)
      have hthere : c ∈ log.drop (j + 1) := by
        refine List.mem_of_mem_drop (i := i - (j + 1)) ?_
        rw [List.drop_drop, Nat.add_sub_cancel' hj]
        exact List.mem_of_mem_head? (hstart hbegins)
      have hhere : log[j] = c := by
        have hfirst := hstart hother
        rw [hlog] at hfirst
        exact Option.some.inj hfirst
      have hpos := List.count_pos_iff.2 hthere
      rw [hlog, hhere, List.count_cons_self]
      omega
    rcases hother.append_cases hfield with hwhole | hfew
    · exact hbefore j hj other hwhole
    · have hle := hfew c hblank
      omega

theorem value?_of_lines_after (hfield : field ∈ all)
    (h : field.value? log = some value) (later : List Char) :
    field.value? (log ++ '\n' :: later) = some value := by
  have hclear := clear_of_mem_all field hfield
  obtain ⟨i, hfirst⟩ := (value?_eq_some_iff hclear).1 h
  exact (value?_eq_some_iff hclear).2
    ⟨i, hfirst.append (contained_of_mem_all field hfield) later⟩

end LogField

namespace Run

/-! ## Runs -/

/-- Whether a run has all that another one has. -/
structure Keeps (told run : Run) : Prop where
  problemClass : ∀ name, run.setting.problemClass = some name →
    told.setting.problemClass = some name
  xstreams : ∀ n, run.setting.xstreams = some n → told.setting.xstreams = some n
  threads : ∀ n, run.setting.threads = some n → told.setting.threads = some n
  initializationTime : ∀ x, run.initializationTime = some x →
    told.initializationTime = some x
  elapsed : told.elapsed = run.elapsed

variable {log other : List Char} {run : Run}

theorem ofLog_congr
    (hfields : ∀ field ∈ LogField.all, field.value? other = field.value? log)
    (hmarker : verificationMarker.toList <:+: other ↔
      verificationMarker.toList <:+: log) :
    ofLog other = ofLog log := by
  have hsetting : settingOf other = settingOf log := by
    rw [settingOf, settingOf, count?, count?, count?, count?,
      hfields _ (by simp [LogField.all]), hfields _ (by simp [LogField.all]),
      hfields _ (by simp [LogField.all])]
  have hseconds :
      ∀ field ∈ LogField.all, seconds? field other = seconds? field log := by
    intro field hfield
    rw [seconds?, seconds?, hfields field hfield]
  have hoccurs : occurs verificationMarker.toList other =
      occurs verificationMarker.toList log := by
    rw [Bool.eq_iff_iff, occurs_iff, occurs_iff]
    exact hmarker
  rw [ofLog, ofLog, hoccurs, hsetting, hseconds _ (by simp [LogField.all]),
    hseconds _ (by simp [LogField.all])]

theorem exists_keeps (hfields : ∀ field ∈ LogField.all, ∀ value,
      field.value? log = some value → field.value? other = some value)
    (hmarker : verificationMarker.toList <:+: other) (h : ofLog log = .ok run) :
    ∃ told, ofLog other = .ok told ∧ told.Keeps run := by
  have hread {α : Type} {field : LogField} (hfield : field ∈ LogField.all)
      (read : List Char → Option α) {a : α}
        (ha : (field.value? log).bind read = some a) :
      (field.value? other).bind read = some a := by
    obtain ⟨value, hvalue, hread⟩ := Option.bind_eq_some_iff.1 ha
    rw [hfields field hfield value hvalue]
    exact hread
  obtain ⟨hsetting, hinitialization, helapsed⟩ :=
    isTold_iff.1 (ofLog_eq_ok_iff.1 h).2
  refine ⟨⟨settingOf other, seconds? .initializationTime other, run.elapsed⟩,
    ofLog_eq_ok_iff.2 ⟨hmarker, isTold_iff.2 ⟨rfl, rfl, ?_⟩⟩, ?_⟩
  · exact hread (by simp [LogField.all]) _ helapsed
  · refine ⟨fun name hname => ?_, fun n hn => ?_, fun n hn => ?_,
      fun x hx => ?_, rfl⟩
    · rw [hsetting] at hname
      obtain ⟨text, htext, rfl⟩ := Option.map_eq_some_iff.1 hname
      exact Option.map_eq_some_iff.2
        ⟨text, hfields _ (by simp [LogField.all]) text htext, rfl⟩
    · rw [hsetting] at hn
      exact hread (by simp [LogField.all]) _ hn
    · rw [hsetting] at hn
      exact hread (by simp [LogField.all]) _ hn
    · rw [hinitialization] at hx
      exact hread (by simp [LogField.all]) _ hx

end Run

/-! ## Log files -/

namespace LogFile

open Utf8

theorem isAscii_opening :
    ∀ word ∈ LogField.openings, ∀ c ∈ word.toList, c.toNat < 0x80 := by
  simp [LogField.openings_eq]

theorem isAscii_marker :
    ∀ c ∈ Run.verificationMarker.toList, c.toNat < 0x80 := by
  simp [Run.verificationMarker]

theorem lineFeed_not_mem_marker : '\n' ∉ Run.verificationMarker.toList := by
  decide

variable {before : List UInt8} {log : List Char}

theorem decodeLossy_before (bytes : List UInt8) :
    decodeLossy (before ++ 0x0A :: bytes) = decodeLossy before ++ '\n' ::
      decodeLossy bytes :=
  decodeLossy_append_ascii (by decide) before bytes

/-- Lines before a log that hold no beginning of a label have no say in
a field. -/
theorem value?_of_bytes_before
    (hquiet : ∀ word ∈ LogField.openings, ¬ encode word.toList <:+: before) :
    ∀ field ∈ LogField.all,
      field.value? (decodeLossy before ++ '\n' :: log) = field.value? log := by
  intro field hfield
  obtain ⟨word, hword, hhead⟩ := LogField.exists_opening hfield
  refine LogField.value?_of_lines_before
    (LogField.contained_of_mem_all field hfield) hhead ?_ log
  exact fun hinfix =>
    hquiet word hword (infix_of_decodeLossy (isAscii_opening word hword) hinfix)

/-- A log is read the same among other lines. The lines before it must not hold
the beginning of a label, and apart from that the lines around it are any bytes.
Then a log of a run is one still, with the same elapsed time and with all that
it told before. If no lines come after it, and those before do not say that
something was verified, then it tells the same or is rejected for the
same reason. -/
theorem read_among_lines {tree : FileTree} {path : Path}
    (hquiet : ∀ word ∈ LogField.openings, ¬ encode word.toList <:+: before) :
    (∀ after run, Run.ofLog log = .ok run →
      tree.read path = .ok (before ++ 0x0A :: (encode log ++ 0x0A :: after)) →
      ∃ file told, read tree path = .ok file ∧
        Run.ofLog file.content = .ok told ∧
        told.Keeps run) ∧
    (¬ encode Run.verificationMarker.toList <:+: before →
      tree.read path = .ok (before ++ 0x0A :: encode log) →
      ∃ file, read tree path = .ok file ∧ Run.ofLog file.content =
        Run.ofLog log) := by
  have hread {bytes : List UInt8} (h : tree.read path = .ok bytes) :
      read tree path = .ok ⟨path, decodeLossy bytes⟩ := by
    rw [read, h]
  constructor
  · intro after run hrun hbytes
    have hcontent :
        decodeLossy (before ++ 0x0A :: (encode log ++ 0x0A :: after)) =
          decodeLossy before ++ '\n' :: (log ++ '\n' :: decodeLossy after) := by
      rw [decodeLossy_before, decodeLossy_before, decodeLossy_encode]
    have hfields :
        ∀ field ∈ LogField.all, ∀ value, field.value? log = some value →
        field.value?
          (decodeLossy before ++ '\n' :: (log ++ '\n' :: decodeLossy after)) =
            some value := by
      intro field hfield value hvalue
      rw [value?_of_bytes_before hquiet field hfield]
      exact LogField.value?_of_lines_after hfield hvalue _
    have hmarker : Run.verificationMarker.toList <:+:
        decodeLossy before ++ '\n' :: (log ++ '\n' :: decodeLossy after) := by
      rw [infix_append_cons_iff lineFeed_not_mem_marker,
        infix_append_cons_iff lineFeed_not_mem_marker]
      exact .inr (.inl (Run.ofLog_eq_ok_iff.1 hrun).1)
    obtain ⟨told, htold, hkeeps⟩ := Run.exists_keeps hfields hmarker hrun
    refine ⟨_, told, hread hbytes, ?_, hkeeps⟩
    rw [hcontent]
    exact htold
  · intro hmarker hbytes
    refine ⟨_, hread hbytes, ?_⟩
    rw [decodeLossy_before, decodeLossy_encode]
    refine Run.ofLog_congr (value?_of_bytes_before hquiet) ?_
    rw [infix_append_cons_iff lineFeed_not_mem_marker, or_iff_right]
    exact fun hinfix => hmarker (infix_of_decodeLossy isAscii_marker hinfix)

/-- A byte that is no text, and the beginning of a label that breaks off. -/
def brokenLine : List UInt8 := 0xFF :: encode "Time in".toList

/-- A log of a run that ends in a value. -/
def logOfFour : List Char :=
  "VERIFICATION SUCCESSFUL\nTime in seconds = 3\nClass = A".toList

/-- A log of a run without the time that it took. -/
def logOfNone : List Char := " seconds = 3\nVERIFICATION SUCCESSFUL".toList

/-- Both logs after the broken line, and the first one before another class. -/
def amongLines : FileTree where
  entries := [([⟨"a.log", by decide⟩], .file (brokenLine ++ 0x0A ::
      (encode logOfFour ++ 0x0A :: (encode "Class = B".toList ++ [0xE2])))),
    ([⟨"b.log", by decide⟩], .file (brokenLine ++ 0x0A :: encode logOfNone))]
  distinct := by decide

theorem read_among_lines_broken :
    (∃ file told, read amongLines ⟨"a.log"⟩ = .ok file ∧
      Run.ofLog file.content = .ok told ∧
      told.setting.problemClass = some "A" ∧ told.elapsed = .ofNat 3) ∧
    ∃ file, read amongLines ⟨"b.log"⟩ = .ok file ∧
      Run.ofLog file.content = .error .missingElapsedTime := by
  have hquiet :
      ∀ word ∈ LogField.openings, ¬ encode word.toList <:+: brokenLine := by
    decide +kernel
  have hrun :
      Run.ofLog logOfFour = .ok ⟨⟨some "A", none, none⟩, none, .ofNat 3⟩ := by
    decide +kernel
  have hfirst : amongLines.read ⟨"a.log"⟩ = .ok (brokenLine ++ 0x0A ::
      (encode logOfFour ++ 0x0A :: (encode "Class = B".toList ++ [0xE2]))) := by
    decide +kernel
  have hsecond : amongLines.read ⟨"b.log"⟩ =
      .ok (brokenLine ++ 0x0A :: encode logOfNone) := by
    decide +kernel
  obtain ⟨file, told, hfile, htold, hkeeps⟩ :=
    (read_among_lines hquiet).1 _ _ hrun hfirst
  obtain ⟨other, hother, hsame⟩ :=
    (read_among_lines hquiet).2 (by decide +kernel) hsecond
  refine ⟨⟨file, told, hfile, htold, hkeeps.problemClass "A" rfl,
    hkeeps.elapsed⟩, other, hother, ?_⟩
  rw [hsame]
  decide +kernel

end LogFile

end BenchReport
