import BenchReport.Proofs.Json.Reader
import BenchReport.Proofs.Numeral.Grammar

/-!
# Written numbers are numbers of JSON

JSON wants no zero in front of other digits and digits on both sides of a point,
which readers of numbers elsewhere do not ask for. Whole numbers have no zero in
front unless they are zero, and neither have the significant digits of a double,
since these are the first digits of a positive whole number. The layouts put a
zero before a point or a positive number of digits, and at least one digit after
it.
-/

namespace BenchReport

/-! ## Digits in front -/

theorem head?_toDigits_ne_zero {n : Nat} (hn : 0 < n) :
    (Nat.toDigits 10 n).head? ≠ some '0' := by
  induction n using Nat.strong_induction_on with
  | _ n ih =>
      rcases Nat.lt_or_ge n 10 with hlt | hge
      · rw [Nat.toDigits_of_lt_base hlt]
        have hdigit : ∀ d < 10, 0 < d → [Nat.digitChar d].head? ≠ some '0' := by
          decide
        exact hdigit n hlt hn
      · have hsplit :=
          Nat.toDigits_append_toDigits (b := 10) (n := n / 10) (d := n % 10)
            (by decide) (by omega) (Nat.mod_lt n (by decide))
        rw [Nat.div_add_mod] at hsplit
        rw [← hsplit, List.head?_append_of_ne_nil _ Nat.toDigits_ne_nil]
        exact ih (n / 10) (by omega) (by omega)

theorem head?_significantDigits_ne_zero {n : Nat} (hn : 0 < n) :
    (significantDigits n).head? ≠ some '0' := by
  obtain ⟨k, hk⟩ := toDigits_eq_significantDigits n
  have hhead := head?_toDigits_ne_zero hn
  rwa [hk, List.head?_append_of_ne_nil _ (significantDigits_ne_nil hn)] at hhead

namespace Json

open Decimal (IsExponent)

/-! ## Numbers -/

/-- Whether digits can stand before the point of a number: no zero is in front
of others. -/
def Leads (digits : List Char) : Prop :=
  (∀ c ∈ digits, c.isDigit) ∧
    (digits = ['0'] ∨ digits ≠ [] ∧ digits.head? ≠ some '0')

/-- Whether the text is a number without a sign. -/
inductive IsUnsigned : List Char → Prop where
  /-- A number without a point. -/
  | whole {digits tail : List Char} {e : Int} (hdigits : Leads digits)
      (htail : IsExponent tail e) : IsUnsigned (digits ++ tail)
  /-- A number with digits after a point. -/
  | point {digits fraction tail : List Char} {e : Int} (hdigits : Leads digits)
      (hfraction : ∀ c ∈ fraction, c.isDigit) (hne : fraction ≠ [])
      (htail : IsExponent tail e) :
      IsUnsigned (digits ++ '.' :: (fraction ++ tail))

theorem isWordChar_of_isDigit {c : Char} (h : c.isDigit) :
    isWordChar c = true := by
  simp [isWordChar, Char.isAlphanum, h]

theorem isWordChar_of_mem_exponent {text : List Char} {e : Int}
    (h : IsExponent text e) :
    ∀ c ∈ text, isWordChar c = true := by
  have hmark : ∀ {mark : Char}, mark = 'e' ∨ mark = 'E' →
      isWordChar mark = true := by
    rintro mark (rfl | rfl) <;> decide
  cases h with
  | zero => simp
  | unsigned hm hdigits _ =>
      exact List.forall_mem_cons.2
        ⟨hmark hm, fun c hc => isWordChar_of_isDigit (hdigits c hc)⟩
  | signed negative hm hdigits _ =>
      refine List.forall_mem_cons.2
        ⟨hmark hm, List.forall_mem_cons.2
          ⟨?_, fun c hc => isWordChar_of_isDigit (hdigits c hc)⟩⟩
      cases negative <;> decide

theorem isWordChar_of_isUnsigned {text : List Char} (h : IsUnsigned text) :
    ∀ c ∈ text, isWordChar c = true := by
  cases h with
  | whole hdigits htail =>
      exact List.forall_mem_append.2
        ⟨fun c hc => isWordChar_of_isDigit (hdigits.1 c hc),
          isWordChar_of_mem_exponent htail⟩
  | point hdigits hfraction _ htail =>
      refine List.forall_mem_append.2
        ⟨fun c hc => isWordChar_of_isDigit (hdigits.1 c hc),
          List.forall_mem_cons.2 ⟨by decide, List.forall_mem_append.2
            ⟨fun c hc => isWordChar_of_isDigit (hfraction c hc),
              isWordChar_of_mem_exponent htail⟩⟩⟩

theorem isUnsignedNumber_of_isUnsigned {text : List Char}
    (h : IsUnsigned text) :
    isUnsignedNumber text = true := by
  cases h with
  | @whole digits tail e hdigits htail =>
      obtain ⟨hdigits, hlead⟩ := hdigits
      have hends := htail.ends
      have hend : ∀ c ∈ tail.head?, c.isDigit = false :=
        fun c hc => (hends c hc).1
      have htail := Decimal.readExponent?_eq_some_iff.2 htail
      rw [isUnsignedNumber, Decimal.takeWhile_isDigit_append hdigits hend,
        Decimal.dropWhile_isDigit_append hdigits hend]
      have hwhole :
          (digits = ['0'] || !digits.isEmpty && digits.head? ≠ some '0') =
            true := by
        simpa using hlead
      simp only [hwhole, Bool.true_and]
      split
      · exact absurd rfl (hends '.' rfl).2
      · rw [htail]
        rfl
  | @point digits fraction tail e hdigits hfraction hne htail =>
      obtain ⟨hdigits, hlead⟩ := hdigits
      have hpoint :
          ∀ c ∈ ('.' :: (fraction ++ tail)).head?, c.isDigit = false := by
        rintro c ⟨⟩
        decide
      have hend : ∀ c ∈ tail.head?, c.isDigit = false :=
        fun c hc => (htail.ends c hc).1
      have htail := Decimal.readExponent?_eq_some_iff.2 htail
      rw [isUnsignedNumber, Decimal.takeWhile_isDigit_append hdigits hpoint,
        Decimal.dropWhile_isDigit_append hdigits hpoint]
      have hwhole :
          (digits = ['0'] || !digits.isEmpty && digits.head? ≠ some '0') =
            true := by
        simpa using hlead
      simp only [hwhole, Bool.true_and,
        Decimal.takeWhile_isDigit_append hfraction hend,
        Decimal.dropWhile_isDigit_append hfraction hend, htail]
      simpa using hne

/-- Whether the text is written as a number: it is one, and all its characters
go together. -/
def IsWritten (text : List Char) : Prop :=
  isNumber text = true ∧ ∀ c ∈ text, isWordChar c = true

theorem isWritten_of_isUnsigned {text : List Char} (h : IsUnsigned text) :
    IsWritten text := by
  refine ⟨?_, isWordChar_of_isUnsigned h⟩
  rw [isNumber.eq_def]
  split
  · -- No number without a sign begins with one.
    have hbegin := isUnsignedNumber_of_isUnsigned h
    simp [isUnsignedNumber] at hbegin
  · exact isUnsignedNumber_of_isUnsigned h

theorem isWritten_neg {text : List Char} (h : IsUnsigned text) :
    IsWritten ('-' :: text) :=
  ⟨isUnsignedNumber_of_isUnsigned h,
    List.forall_mem_cons.2 ⟨by decide, isWordChar_of_isUnsigned h⟩⟩

theorem leads_toDigits (n : Nat) : Leads (Nat.toDigits 10 n) := by
  refine ⟨fun c hc => Whole.isDigit_of_mem_toDigits hc, ?_⟩
  rcases Nat.eq_zero_or_pos n with rfl | hn
  · exact .inl rfl
  · exact .inr ⟨Nat.toDigits_ne_nil, head?_toDigits_ne_zero hn⟩

theorem isWritten_toDigits (n : Nat) : IsWritten (Nat.toDigits 10 n) := by
  have h := IsUnsigned.whole (leads_toDigits n) .zero
  rw [List.append_nil] at h
  exact isWritten_of_isUnsigned h

/-! ## Written doubles -/

theorem leads_zero : Leads ['0'] := ⟨List.forall_mem_singleton.2 rfl, .inl rfl⟩

/-- A whole number is written with a zero after the point. -/
theorem isUnsigned_wholeEnd {digits : List Char} (hdigits : Leads digits) :
    IsUnsigned (digits ++ NumeralStyle.json.wholeEnd) := by
  have hzero : ∀ c ∈ ['0'], c.isDigit := List.forall_mem_singleton.2 rfl
  exact IsUnsigned.point hdigits hzero (by decide) .zero

theorem isUnsigned_positionalText {digits : List Char}
    (hdigits : ∀ c ∈ digits, c.isDigit) (hne : digits ≠ [])
    (hlead : digits.head? ≠ some '0') (leading : Int) :
    IsUnsigned (NumeralStyle.json.positionalText digits leading) := by
  have hzeros : ∀ n, ∀ c ∈ List.replicate n '0', c.isDigit := fun n c hc => by
    rw [(List.mem_replicate.1 hc).2]
    decide
  rw [NumeralStyle.positionalText]
  split
  · have hall := List.forall_mem_append.2 ⟨hzeros (-leading - 1).toNat, hdigits⟩
    have h := IsUnsigned.point leads_zero hall (by simp [hne]) .zero
    simpa using h
  · dsimp only
    split
    · let whole :=
        digits ++ List.replicate (leading.toNat + 1 - digits.length) '0'
      have hwhole : Leads whole := by
        refine ⟨List.forall_mem_append.2 ⟨hdigits, hzeros _⟩,
          .inr ⟨by simp [whole, hne], ?_⟩⟩
        rwa [List.head?_append_of_ne_nil _ hne]
      exact isUnsigned_wholeEnd hwhole
    · next hlength =>
      have hwhole : Leads (digits.take (leading.toNat + 1)) := by
        refine ⟨fun c hc => hdigits c (List.mem_of_mem_take hc),
          .inr ⟨by simp [hne], ?_⟩⟩
        rw [List.head?_take]
        simpa using hlead
      have hfraction : ∀ c ∈ digits.drop (leading.toNat + 1), c.isDigit :=
        fun c hc => hdigits c (List.mem_of_mem_drop hc)
      have h := IsUnsigned.point hwhole hfraction (by simp; omega) .zero
      simpa using h

theorem isUnsigned_scientificText {digits : List Char}
    (hdigits : ∀ c ∈ digits, c.isDigit) (hne : digits ≠ [])
    (hlead : digits.head? ≠ some '0') (leading : Int) :
    IsUnsigned (NumeralStyle.json.scientificText digits leading) := by
  obtain ⟨first, rest, rfl⟩ := List.exists_cons_of_ne_nil hne
  obtain ⟨hfirst, hrest⟩ := List.forall_mem_cons.1 hdigits
  have hexponent := Decimal.readExponent?_eq_some_iff.1
    (NumeralStyle.readExponent?_written NumeralStyle.readable_json leading)
  have hleads : Leads [first] :=
    ⟨List.forall_mem_singleton.2 hfirst, .inr ⟨by simp, by simpa using hlead⟩⟩
  rw [NumeralStyle.scientificText]
  cases rest with
  | nil => simpa using IsUnsigned.whole hleads hexponent
  | cons second later =>
      simpa using IsUnsigned.point hleads hrest (by simp) hexponent

theorem isUnsigned_magnitudeText {m : Magnitude} (hfinite : m.isFinite = true) :
    IsUnsigned (NumeralStyle.json.magnitudeText m) := by
  rw [NumeralStyle.magnitudeText]
  split
  · exact isUnsigned_wholeEnd leads_zero
  · next hzero =>
    have hpos := Magnitude.coefficient_shortest_pos NumeralStyle.json.tie hzero
    have hdigits :
        ∀ c ∈ significantDigits (m.shortest NumeralStyle.json.tie).coefficient,
        c.isDigit := fun c => isDigit_of_mem_significantDigits
    have hne := significantDigits_ne_nil hpos
    have hlead := head?_significantDigits_ne_zero hpos
    rw [NumeralStyle.decimalText]
    split
    · exact isUnsigned_positionalText hdigits hne hlead _
    · exact isUnsigned_scientificText hdigits hne hlead _

theorem isWritten_toChars {x : Double} (hfinite : x.isFinite = true) :
    IsWritten (x.toChars .json) := by
  cases x with
  | nan => cases hfinite
  | signed negative m =>
      have h := isUnsigned_magnitudeText (m := m) hfinite
      cases negative with
      | true => exact isWritten_neg h
      | false => exact isWritten_of_isUnsigned h

end Json

end BenchReport
