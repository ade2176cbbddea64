import BenchReport.Proofs.Numeral.RoundTrip
import BenchReport.Proofs.Numeral.Whole
import BenchReport.Proofs.Text.Decoding
import BenchReport.Report.Csv
import BenchReport.Table.Load

/-!
# The fields of a report as the fields of a table

White space around a field is dropped twice, once from its bytes and once from
its text. A number is written without any, so all four columns of a table keep
their texts; the class may lose some, but no table asks for it.

A count that is unknown is an empty field, and an empty field is no number. So
the record of an entry is a row exactly if both counts are known, and it is the
row that `Entry.IsRow` tells.
-/

namespace BenchReport

/-! ## Texts without white space -/

namespace Text

/-- Whether no character of the text is white space. -/
def IsSolid (cs : List Char) : Prop :=
  ∀ c ∈ cs, isBlank c = false

instance (cs : List Char) : Decidable (IsSolid cs) :=
  List.decidableBAll (isBlank · = false) cs

theorem isBlank_of_isDigit {c : Char} (h : c.isDigit) : isBlank c = false := by
  have hrange : 48 ≤ c.toNat ∧ c.toNat ≤ 57 := by
    simpa [Char.isDigit, Char.le_def, UInt32.le_iff_toNat_le] using h
  simp [isBlank, blankRanges, Ranges.holds]
  omega

theorem isSolid_append {cs ds : List Char} (hcs : IsSolid cs)
    (hds : IsSolid ds) :
    IsSolid (cs ++ ds) :=
  List.forall_mem_append.2 ⟨hcs, hds⟩

theorem isSolid_cons {c : Char} {cs : List Char} (hc : isBlank c = false)
    (hcs : IsSolid cs) :
    IsSolid (c :: cs) :=
  List.forall_mem_cons.2 ⟨hc, hcs⟩

theorem isSolid_of_isDigit {cs : List Char} (h : ∀ c ∈ cs, c.isDigit) :
    IsSolid cs :=
  fun c hc => isBlank_of_isDigit (h c hc)

theorem isSolid_toDigits (n : Nat) : IsSolid (Nat.toDigits 10 n) :=
  isSolid_of_isDigit fun _ => Whole.isDigit_of_mem_toDigits

theorem isSolid_replicate_zero (n : Nat) : IsSolid (List.replicate n '0') :=
  isSolid_of_isDigit fun c hc => by rw [(List.mem_replicate.1 hc).2]; decide

theorem IsSolid.subset {cs ds : List Char} (h : IsSolid ds)
    (hsubset : cs ⊆ ds) :
    IsSolid cs :=
  fun c hc => h c (hsubset hc)

theorem IsSolid.not_mem {cs : List Char} {c : Char} (h : IsSolid cs)
    (hc : isBlank c = true) :
    c ∉ cs := by
  intro hmem
  cases (h c hmem).symm.trans hc

theorem trimBoth_eq_self {cs : List Char} {p : Char → Bool}
    (h : ∀ c ∈ cs, p c = false) :
    trimBoth p cs = cs := by
  have hkeep : ∀ ds : List Char, (∀ c ∈ ds, p c = false) →
      ds.dropWhile p = ds := by
    intro ds hds
    cases ds with
    | nil => rfl
    | cons c rest =>
        rw [List.dropWhile_cons_of_neg
          (by simp [hds c (List.mem_cons_self ..)])]
  rw [trimBoth, hkeep cs h, hkeep _ fun c hc => h c (List.mem_reverse.1 hc),
    List.reverse_reverse]

end Text

open Text (IsSolid isSolid_append isSolid_cons)

namespace NumeralStyle

variable {style : NumeralStyle} {digits : List Char}

theorem Readable.isSolid_wholeEnd (hstyle : style.Readable) :
    IsSolid style.wholeEnd := by
  rcases hstyle.wholeEnd with h | h <;> rw [h]
  · decide
  · decide

theorem Readable.isSolid_exponentPlus (hstyle : style.Readable) :
    IsSolid style.exponentPlus := by
  rcases hstyle.exponentPlus with h | h <;> rw [h]
  · decide
  · decide

theorem isSolid_positionalText (hstyle : style.Readable)
    (hdigits : IsSolid digits) (leading : Int) :
    IsSolid (style.positionalText digits leading) := by
  rw [positionalText]
  split
  · exact isSolid_append
      (isSolid_append (by decide) (Text.isSolid_replicate_zero _)) hdigits
  · dsimp only
    split
    · exact isSolid_append
        (isSolid_append hdigits (Text.isSolid_replicate_zero _))
        hstyle.isSolid_wholeEnd
    · exact isSolid_append (hdigits.subset (List.take_subset _ _))
        (isSolid_cons (by decide) (hdigits.subset (List.drop_subset _ _)))

theorem isSolid_scientificText (hstyle : style.Readable)
    (hdigits : IsSolid digits) (leading : Int) :
    IsSolid (style.scientificText digits leading) := by
  have hfraction :
      IsSolid (if digits.length ≤ 1 then [] else '.' :: digits.drop 1) := by
    split
    · decide
    · exact isSolid_cons (by decide) (hdigits.subset (List.drop_subset _ _))
  have hsign : IsSolid (if leading < 0 then ['-'] else style.exponentPlus) := by
    split
    · decide
    · exact hstyle.isSolid_exponentPlus
  have hmark : IsSolid ['e'] := by decide
  exact isSolid_append (isSolid_append (isSolid_append (isSolid_append
    (hdigits.subset (List.take_subset _ _)) hfraction) hmark) hsign)
      (Text.isSolid_toDigits _)

theorem isSolid_magnitudeText (hstyle : style.Readable) (m : Magnitude) :
    IsSolid (style.magnitudeText m) := by
  rw [magnitudeText]
  split
  · exact isSolid_cons (by decide) hstyle.isSolid_wholeEnd
  · split
    · have hdigits :
          IsSolid (significantDigits (m.shortest style.tie).coefficient) :=
        Text.isSolid_of_isDigit fun _ => isDigit_of_mem_significantDigits
      rw [decimalText]
      split
      · exact isSolid_positionalText hstyle hdigits _
      · exact isSolid_scientificText hstyle hdigits _
    · decide

end NumeralStyle

theorem Double.isSolid_toChars {style : NumeralStyle} (hstyle : style.Readable)
    (x : Double) :
    IsSolid (x.toChars style) := by
  cases x with
  | nan => exact (by decide : IsSolid "NaN".toList)
  | signed negative m =>
      have hmagnitude := NumeralStyle.isSolid_magnitudeText hstyle m
      cases negative with
      | true => exact isSolid_cons (by decide) hmagnitude
      | false => exact hmagnitude

/-! ## The texts of fields -/

namespace Table

/-- What is left of a written field when white space is dropped from
both ends. -/
def trimmed (field : List Char) : List Char :=
  Text.trim (Text.trimBoth (Utf8.onAscii isBlankByte) field)

theorem isBlankByte_cases {b : UInt8} (h : isBlankByte b = true) :
    b = 0x20 ∨ b = 0x09 ∨ b = 0x0A ∨ b = 0x0C ∨ b = 0x0D := by
  simpa [isBlankByte, or_assoc] using h

theorem toNat_lt_of_isBlankByte (b : UInt8) (h : isBlankByte b = true) :
    b.toNat < 0x80 := by
  rcases isBlankByte_cases h with rfl | rfl | rfl | rfl | rfl <;> decide

theorem fieldTexts_encode (fields : List (List Char)) (index : Nat) :
    fieldTexts index (fields.map Utf8.encode) = .ok (fields.map trimmed) := by
  induction fields generalizing index with
  | nil => rfl
  | cons field rest ih =>
      rw [List.map_cons, fieldTexts,
        Utf8.trimBoth_encode toNat_lt_of_isBlankByte, Utf8.decode_encode]
      simp only [ih]
      rfl

theorem onAscii_isBlankByte {c : Char} (h : Utf8.onAscii isBlankByte c = true) :
    Text.isBlank c = true := by
  rw [Utf8.onAscii, Bool.and_eq_true, decide_eq_true_eq] at h
  obtain ⟨hascii, hblank⟩ := h
  have hbyte : (UInt8.ofNat c.toNat).toNat = c.toNat := by
    rw [UInt8.toNat_ofNat', Nat.mod_eq_of_lt (by omega)]
  have hcode := isBlankByte_cases hblank
  simp only [← UInt8.toNat_inj, hbyte, UInt8.reduceToNat] at hcode
  simp [Text.isBlank, Text.blankRanges, Text.Ranges.holds]
  omega

/-- What is dropped from the bytes would be dropped from the text. -/
theorem trimmed_eq_trim (field : List Char) : trimmed field = Text.trim field :=
  Text.trimBoth_trimBoth (fun _ => onAscii_isBlankByte) field

theorem trimmed_of_isSolid {field : List Char} (h : IsSolid field) :
    trimmed field = field := by
  rw [trimmed_eq_trim, Text.trim, Text.trimBoth_eq_self h]

end Table

end BenchReport
