import BenchReport.Proofs.Numeral.RoundTrip
import BenchReport.Proofs.Numeral.Whole
import BenchReport.Proofs.Outcome

/-!
# What is a numeral

The readers of numbers accept their grammars and nothing else, and what they
give is the value of the text.

A whole numeral is digits of its base, after a plus sign or not. The reader
gives up at the first digit that passes the limit, and that is no more than the
last one would have done, since values only grow (`le_valueFrom`).

A number with a fraction is digits around at most one point and an exponent, or
a word. The reader cuts a text where the digits end; the parts of the grammar
are cut there too, as neither a point nor an exponent begins with a digit.
-/

namespace BenchReport

/-! ## Whole numerals -/

namespace Whole

/-- The value of digits after those of a value. -/
def valueFrom (base value : Nat) (digits : List Nat) : Nat :=
  digits.foldl (fun value digit => base * value + digit) value

/-- Whether the text is a numeral of this value in a base: digits, at least one
of them, that a plus sign may stand before. -/
def IsNumeral (base : Nat) (text : List Char) (n : Nat) : Prop :=
  ∃ digits values, (text = digits ∨ text = '+' :: digits) ∧ digits ≠ [] ∧
    List.Forall₂ (fun c value => digitValue? base c = some value)
      digits values ∧
    n = valueFrom base 0 values

/-- Whether the text is a number in decimal, or in hexadecimal after `0x`. -/
def IsCount (text : List Char) (n : Nat) : Prop :=
  IsNumeral 10 text n ∨ ∃ digits, text = '0' :: 'x' :: digits ∧
    IsNumeral 16 digits n

theorem base_pos_of_digitValue? {base value : Nat} {c : Char}
    (h : digitValue? base c = some value) : 0 < base := by
  simp only [digitValue?, Option.ite_none_right_eq_some] at h
  exact Nat.zero_lt_of_lt h.1

theorem le_valueFrom {base : Nat} (hbase : 0 < base) (value : Nat)
    (digits : List Nat) :
    value ≤ valueFrom base value digits := by
  induction digits generalizing value with
  | nil => exact Nat.le_refl value
  | cons digit rest ih =>
      have hstep := ih (base * value + digit)
      have hgrow : value ≤ base * value := Nat.le_mul_of_pos_left value hbase
      show value ≤ valueFrom base (base * value + digit) rest
      omega

theorem readDigits_eq_ok_iff {base limit value n : Nat} {digits : List Char} :
    readDigits base limit value digits = .ok n ↔ ∃ values,
      List.Forall₂ (fun c value => digitValue? base c = some value)
        digits values ∧
      n = valueFrom base value values ∧ (digits ≠ [] → n < limit) := by
  induction digits generalizing value with
  | nil => simp [readDigits, valueFrom, eq_comm]
  | cons c rest ih =>
      rw [readDigits]
      cases hdigit : digitValue? base c with
      | none =>
          simp [List.forall₂_cons_left_iff, hdigit]
      | some digit =>
          have hbase := base_pos_of_digitValue? hdigit
          by_cases hlt : base * value + digit < limit
          · simp only [if_pos hlt]
            rw [ih]
            constructor
            · rintro ⟨values, hvalues, rfl, hlimit⟩
              refine ⟨digit :: values, .cons hdigit hvalues, rfl, fun _ => ?_⟩
              by_cases hrest : rest = []
              · subst hrest
                cases hvalues
                exact hlt
              · exact hlimit hrest
            · rintro ⟨values, hvalues, hn, hlimit⟩
              obtain ⟨_, later, hfirst, hlater, rfl⟩ :=
                List.forall₂_cons_left_iff.1 hvalues
              cases hdigit.symm.trans hfirst
              exact ⟨later, hlater, hn, fun _ => hlimit (by simp)⟩
          · simp only [if_neg hlt]
            refine iff_of_false (fun h => by cases h) ?_
            rintro ⟨values, hvalues, rfl, hlimit⟩
            obtain ⟨_, later, hfirst, hlater, rfl⟩ :=
              List.forall₂_cons_left_iff.1 hvalues
            cases hdigit.symm.trans hfirst
            have hle := le_valueFrom hbase (base * value + digit) later
            exact hlt (Nat.lt_of_le_of_lt hle (hlimit (by simp)))

theorem digitValue?_plus (base : Nat) : digitValue? base '+' = none := by
  simp [digitValue?]

theorem read_eq_ok_iff {base limit n : Nat} {text : List Char} :
    read base limit text = .ok n ↔ IsNumeral base text n ∧ n < limit := by
  have hdigits : ∀ {digits : List Char}, digits ≠ [] →
      (text = digits ∨ text = '+' :: digits) →
      readDigits base limit 0 digits = .ok n →
        IsNumeral base text n ∧ n < limit := by
    intro digits hne htext h
    obtain ⟨values, hvalues, hn, hlimit⟩ := readDigits_eq_ok_iff.1 h
    exact ⟨⟨digits, values, htext, hne, hvalues, hn⟩, hlimit hne⟩
  constructor
  · intro h
    rw [read.eq_def] at h
    split at h
    · cases h
    · cases h
    · next digits hne =>
      exact hdigits (fun hnil => hne (by rw [hnil])) (.inr rfl) h
    · next hne _ _ => exact hdigits hne (.inl rfl) h
  · rintro ⟨⟨digits, values, htext, hne, hvalues, hn⟩, hlimit⟩
    have hread : readDigits base limit 0 digits = .ok n :=
      readDigits_eq_ok_iff.2 ⟨values, hvalues, hn, fun _ => hlimit⟩
    obtain ⟨c, rest, rfl⟩ := List.exists_cons_of_ne_nil hne
    rcases htext with rfl | rfl
    · have hplus : c ≠ '+' := by
        rintro rfl
        obtain ⟨_, _, hfirst, -, -⟩ := List.forall₂_cons_left_iff.1 hvalues
        cases (digitValue?_plus base).symm.trans hfirst
      rw [read.eq_def]
      split
      · next h => cases h
      · next h => exact absurd (List.cons.inj h).1 hplus
      · next h => exact absurd (List.cons.inj h).1 hplus
      · exact hread
    · rw [read]
      · exact hread
      · simp

theorem map_read_eq_ok_iff {base : Nat} {text : List Char} {n : UInt32} :
    (read base UInt32.size text).map UInt32.ofNat = .ok n ↔
      IsNumeral base text n.toNat := by
  rw [map_eq_ok_iff]
  constructor
  · rintro ⟨m, hm, rfl⟩
    obtain ⟨hnumeral, hlt⟩ := read_eq_ok_iff.1 hm
    rwa [UInt32.toNat_ofNat_of_lt' hlt]
  · intro h
    exact ⟨n.toNat, read_eq_ok_iff.2 ⟨h, n.toNat_lt⟩, UInt32.ofNat_toNat⟩

/-- No decimal numeral begins like a hexadecimal one. -/
theorem not_isNumeral_ten_hex (digits : List Char) (n : Nat) :
    ¬ IsNumeral 10 ('0' :: 'x' :: digits) n := by
  rintro ⟨all, values, htext, -, hvalues, -⟩
  have hmark : digitValue? 10 'x' = none := by decide
  rcases htext with rfl | h
  · obtain ⟨_, _, -, hlater, -⟩ := List.forall₂_cons_left_iff.1 hvalues
    obtain ⟨_, _, hx, -, -⟩ := List.forall₂_cons_left_iff.1 hlater
    cases hmark.symm.trans hx
  · exact absurd (List.cons.inj h).1 (by decide)

theorem readUInt32OrHex_eq_ok_iff {text : List Char} {n : UInt32} :
    readUInt32OrHex text = .ok n ↔ IsCount text n.toNat := by
  rw [readUInt32OrHex.eq_def]
  split
  · next digits =>
    rw [map_read_eq_ok_iff]
    constructor
    · exact fun h => .inr ⟨digits, rfl, h⟩
    · rintro (h | ⟨_, htext, h⟩)
      · exact absurd h (not_isNumeral_ten_hex digits _)
      · cases htext
        exact h
  · next hhex =>
    rw [readUInt32, map_read_eq_ok_iff]
    constructor
    · exact .inl
    · rintro (h | ⟨digits, htext, -⟩)
      · exact h
      · exact absurd htext (hhex digits)

end Whole

/-! ## Numbers with a fraction -/

namespace Decimal

/-- Whether the text is the end of a numeral and says this exponent. -/
inductive IsExponent : List Char → Int → Prop where
  /-- The exponent is left out. -/
  | zero : IsExponent [] 0
  /-- Digits without a sign. -/
  | unsigned {mark : Char} {digits : List Char}
      (hmark : mark = 'e' ∨ mark = 'E') (hdigits : ∀ c ∈ digits, c.isDigit)
      (hne : digits ≠ []) :
      IsExponent (mark :: digits) (Nat.ofDigitChars 10 digits 0 : Int)
  /-- Digits after a sign. -/
  | signed {mark : Char} {digits : List Char} (negative : Bool)
      (hmark : mark = 'e' ∨ mark = 'E') (hdigits : ∀ c ∈ digits, c.isDigit)
      (hne : digits ≠ []) :
      IsExponent (mark :: (if negative then '-' else '+') :: digits)
        (if negative then -(Nat.ofDigitChars 10 digits 0 : Int)
          else (Nat.ofDigitChars 10 digits 0 : Int))

/-- Whether the text is an unsigned numeral of this decimal. -/
inductive IsNumeral : List Char → Decimal → Prop where
  /-- Digits without a point. -/
  | whole {digits tail : List Char} {e : Int}
      (hdigits : ∀ c ∈ digits, c.isDigit) (hne : digits ≠ [])
      (htail : IsExponent tail e) :
      IsNumeral (digits ++ tail) ⟨Nat.ofDigitChars 10 digits 0, e⟩
  /-- Digits on at least one side of a point. -/
  | point {digits fraction tail : List Char} {e : Int}
      (hdigits : ∀ c ∈ digits, c.isDigit)
      (hfraction : ∀ c ∈ fraction, c.isDigit)
      (hne : digits ≠ [] ∨ fraction ≠ []) (htail : IsExponent tail e) :
      IsNumeral (digits ++ '.' :: (fraction ++ tail))
        ⟨Nat.ofDigitChars 10 (digits ++ fraction) 0, e - fraction.length⟩

variable {text : List Char}

theorem IsExponent.ends {e : Int} (h : IsExponent text e) : Ends text := by
  have hmark : ∀ {mark : Char}, mark = 'e' ∨ mark = 'E' →
      mark.isDigit = false ∧ mark ≠ '.' := by
    rintro mark (rfl | rfl) <;> decide
  cases h with
  | zero => exact ends_nil
  | unsigned h _ _ | signed _ h _ _ =>
      rintro c ⟨⟩
      exact hmark h

theorem readExponent?_eq_some_iff {e : Int} :
    readExponent? text = some e ↔ IsExponent text e := by
  constructor
  · intro h
    cases text with
    | nil =>
        cases h
        exact .zero
    | cons mark rest =>
        simp only [readExponent?, Option.ite_none_right_eq_some,
          Bool.and_eq_true, Bool.or_eq_true, decide_eq_true_eq,
          Bool.not_eq_true', List.isEmpty_eq_false_iff, List.all_eq_true,
          Option.some.injEq] at h
        obtain ⟨⟨⟨hmark, hne⟩, hdigits⟩, rfl⟩ := h
        revert hne hdigits
        split
        · exact fun hdigits hne => .signed true hmark hdigits hne
        · exact fun hdigits hne => .signed false hmark hdigits hne
        · exact fun hdigits hne => .unsigned hmark hdigits hne
  · intro h
    cases h with
    | zero => rfl
    | unsigned hmark hdigits hne => exact readExponent?_digits hmark hdigits hne
    | signed negative hmark hdigits hne =>
        exact readExponent?_signed negative hmark hdigits hne

theorem read?_eq_some_iff {d : Decimal} :
    read? text = some d ↔ IsNumeral text d := by
  constructor
  · intro h
    have hsplit :=
      List.takeWhile_append_dropWhile (p := Char.isDigit) (l := text)
    have hwhole : ∀ c ∈ text.takeWhile Char.isDigit, c.isDigit := fun c hc =>
      List.mem_takeWhile_imp hc
    simp only [read?] at h
    split at h
    · next rest hpoint =>
      have hfraction : ∀ c ∈ rest.takeWhile Char.isDigit, c.isDigit :=
        fun c hc => List.mem_takeWhile_imp hc
      simp only [Option.ite_none_left_eq_some, Option.map_eq_some_iff,
        Bool.and_eq_true, List.isEmpty_iff, not_and_or] at h
      obtain ⟨hne, e, he, rfl⟩ := h
      have hnumeral :=
        IsNumeral.point hwhole hfraction hne (readExponent?_eq_some_iff.1 he)
      rwa [List.takeWhile_append_dropWhile, ← hpoint, hsplit] at hnumeral
    · simp only [Option.ite_none_left_eq_some, Option.map_eq_some_iff,
        Bool.and_eq_true, List.isEmpty_iff, not_and_or, not_true_eq_false,
        or_false, List.append_nil, List.length_nil, Int.natCast_zero,
        Int.sub_zero] at h
      obtain ⟨hne, e, he, rfl⟩ := h
      have hnumeral :=
        IsNumeral.whole hwhole hne (readExponent?_eq_some_iff.1 he)
      rwa [hsplit] at hnumeral
  · intro h
    cases h with
    | whole hdigits hne htail =>
        exact read?_whole hdigits hne htail.ends
          (readExponent?_eq_some_iff.2 htail)
    | point hdigits hfraction hne htail =>
        exact read?_point hdigits hfraction hne htail.ends
          (readExponent?_eq_some_iff.2 htail)

/-- A numeral begins with a digit or with its point. -/
theorem IsNumeral.exists_head {d : Decimal} (h : IsNumeral text d) :
    ∃ c rest, text = c :: rest ∧ (c.isDigit ∨ c = '.') := by
  cases h with
  | whole hdigits hne htail =>
      obtain ⟨c, rest, rfl⟩ := List.exists_cons_of_ne_nil hne
      exact ⟨c, _, rfl, .inl (hdigits c (List.mem_cons_self ..))⟩
  | @point digits fraction tail e hdigits hfraction hne htail =>
      cases digits with
      | nil => exact ⟨'.', _, rfl, .inr rfl⟩
      | cons c rest =>
          exact ⟨c, _, rfl, .inl (hdigits c (List.mem_cons_self ..))⟩

end Decimal

namespace Double

/-- Whether the text says this double after a sign. -/
inductive IsUnsigned (negative : Bool) : List Char → Double → Prop where
  /-- The double nearest to a decimal. -/
  | decimal {text : List Char} {d : Decimal} (h : Decimal.IsNumeral text d) :
      IsUnsigned negative text (.signed negative d.toMagnitude)
  /-- The words for infinity. -/
  | infinity {text : List Char} (h : text.map Char.toLower = "inf".toList ∨
      text.map Char.toLower = "infinity".toList) :
      IsUnsigned negative text (.signed negative .infinity)
  /-- The word for no number, which has no sign. -/
  | nan {text : List Char} (h : text.map Char.toLower = "nan".toList) :
      IsUnsigned negative text .nan

/-- Whether the text is a number of this value. -/
inductive IsNumber : List Char → Double → Prop where
  /-- Without a sign. -/
  | unsigned {text : List Char} {x : Double} (h : IsUnsigned false text x) :
    IsNumber text x
  /-- After a plus sign. -/
  | plus {text : List Char} {x : Double} (h : IsUnsigned false text x) :
    IsNumber ('+' :: text) x
  /-- After a minus sign. -/
  | minus {text : List Char} {x : Double} (h : IsUnsigned true text x) :
    IsNumber ('-' :: text) x

/-- Case makes no difference to the first character of a numeral. -/
theorem toLower_eq_self {c : Char} (h : c.isDigit ∨ c = '.') :
    c.toLower = c := by
  have hle : c.toNat ≤ '9'.toNat := by
    rcases h with h | rfl
    · simp only [Char.isDigit, Bool.and_eq_true, decide_eq_true_eq] at h
      exact h.2
    · decide
  refine dif_neg fun hupper => ?_
  have hge : 'A'.toNat ≤ c.toNat := hupper.1
  exact absurd (Nat.le_trans hge hle) (by decide)

/-- No word is a numeral. -/
theorem read?_eq_none_of_word {text : List Char} {word : String} {letter : Char}
    (h : text.map Char.toLower = word.toList)
    (hhead : word.toList.head? = some letter)
    (hletter : letter.isDigit = false ∧ letter ≠ '.') :
    Decimal.read? text = none := by
  cases hread : Decimal.read? text with
  | none => rfl
  | some d =>
      obtain ⟨c, rest, rfl, hc⟩ :=
        (Decimal.read?_eq_some_iff.1 hread).exists_head
      rw [← h, List.map_cons, List.head?_cons, toLower_eq_self hc] at hhead
      cases hhead
      rcases hc with hc | hc
      · cases hletter.1.symm.trans hc
      · exact absurd hc hletter.2

theorem readUnsigned_eq_ok_iff {negative : Bool} {text : List Char}
    {x : Double} :
    readUnsigned negative text = .ok x ↔ IsUnsigned negative text x := by
  constructor
  · intro h
    rw [readUnsigned] at h
    split at h
    · next d hd =>
      cases h
      exact .decimal (Decimal.read?_eq_some_iff.1 hd)
    · split at h
      · next value hvalue =>
        cases h
        simp only [ofWord?, Bool.or_eq_true, decide_eq_true_eq] at hvalue
        split at hvalue
        · next hword =>
          cases hvalue
          exact .infinity hword
        · split at hvalue
          · next hword =>
            cases hvalue
            exact .nan hword
          · cases hvalue
      · cases h
  · intro h
    rw [readUnsigned]
    cases h with
    | decimal h => rw [Decimal.read?_eq_some_iff.2 h]
    | infinity h =>
        rcases h with h | h
        · rw [read?_eq_none_of_word h rfl (by decide), h]
          rfl
        · rw [read?_eq_none_of_word h rfl (by decide), h]
          rfl
    | nan h =>
        rw [read?_eq_none_of_word h rfl (by decide), h]
        rfl

theorem read_eq_ok_iff {text : List Char} {x : Double} :
    read text = .ok x ↔ IsNumber text x := by
  constructor
  · intro h
    rw [read.eq_def] at h
    split at h
    · cases h
    · exact .minus (readUnsigned_eq_ok_iff.1 h)
    · exact .plus (readUnsigned_eq_ok_iff.1 h)
    · exact .unsigned (readUnsigned_eq_ok_iff.1 h)
  · intro h
    cases h with
    | unsigned h => exact read_of_readUnsigned (readUnsigned_eq_ok_iff.2 h)
    | plus h => exact readUnsigned_eq_ok_iff.2 h
    | minus h => exact readUnsigned_eq_ok_iff.2 h

end Double

end BenchReport
