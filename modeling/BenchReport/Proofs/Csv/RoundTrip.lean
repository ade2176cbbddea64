import BenchReport.Csv.Write
import BenchReport.Proofs.Csv.Spelling
import BenchReport.Proofs.Text.Utf8

/-!
# Written records are read back

The writer works on characters and the reader on bytes, so the first section
says what a field looks like in bytes: the characters that ask for quotes are
the bytes that the reader looks for, and no other character holds one of them.

What is written is then one of the spellings of its records: a field that needs
no quotes stands as it is, the others are quoted. A record of several fields has
a comma, so it is no blank line. With `fields_records_of_spells`, every list of
such records is read back field by field.
-/

namespace BenchReport.Csv

open Utf8 (encode encode_nil encode_cons encode_append)

/-- Whether the byte can stand only in a quoted field. -/
def isReserved (b : UInt8) : Bool :=
  b = quote || endsField b

/-! ## Fields in bytes -/

theorem isReserved_cases {b : UInt8} (h : isReserved b = true) :
    b = 0x22 ∨ b = 0x2C ∨ b = 0x0A ∨ b = 0x0D := by
  simp only [isReserved, endsField, isLineEnd, Bool.or_eq_true,
    decide_eq_true_eq] at h
  exact h

theorem toNat_lt_of_isReserved (b : UInt8) (h : isReserved b = true) :
    b.toNat < 0x80 := by
  rcases isReserved_cases h with rfl | rfl | rfl | rfl <;> decide

theorem onAscii_byte (c d : Char) (hd : d.toNat < 0x80) :
    Utf8.onAscii (fun b => b = .ofNat d.toNat) c = decide (c = d) := by
  by_cases h : c = d
  · subst h
    simp [Utf8.onAscii, hd]
  · rw [decide_eq_false h]
    simp only [Utf8.onAscii, Bool.and_eq_false_iff, decide_eq_false_iff_not]
    by_cases hc : c.toNat < 0x80
    · refine .inr fun heq => h (Char.toNat_inj.1 ?_)
      have hnat := congrArg UInt8.toNat heq
      rw [UInt8.toNat_ofNat', UInt8.toNat_ofNat', Nat.mod_eq_of_lt (by omega),
        Nat.mod_eq_of_lt (by omega)] at hnat
      exact hnat
    · exact .inl hc

theorem needsQuotes_eq (c : Char) :
    needsQuotes c = Utf8.onAscii isReserved c := by
  have hcomma := onAscii_byte c ',' (by decide)
  have hquote := onAscii_byte c '"' (by decide)
  have hreturn := onAscii_byte c '\r' (by decide)
  have hfeed := onAscii_byte c '\n' (by decide)
  rw [needsQuotes, ← hcomma, ← hquote, ← hreturn, ← hfeed]
  cases hc : decide (c.toNat < 0x80) with
  | false => simp [Utf8.onAscii, hc]
  | true =>
      simp only [Utf8.onAscii, hc, Bool.true_and, isReserved,
        endsField, isLineEnd]
      show (_ = (44 : UInt8) || _ = (34 : UInt8) || _ = (13 : UInt8)
          || _ = (10 : UInt8) : Bool) =
        (_ = (34 : UInt8) ||
          (_ = (44 : UInt8) || (_ = (10 : UInt8) || _ = (13 : UInt8))) : Bool)
      ac_rfl

theorem doubled_eq_self {bytes : List UInt8} (h : ∀ b ∈ bytes, b ≠ quote) :
    doubled bytes = bytes := by
  induction bytes with
  | nil => rfl
  | cons b rest ih =>
      have hrest := ih fun b hb => h b (List.mem_cons_of_mem _ hb)
      rw [doubled, List.flatMap_cons, if_neg (h b (List.mem_cons_self ..))]
      exact congrArg (b :: ·) hrest

theorem encode_doubleQuotes (cs : List Char) :
    encode (doubleQuotes cs) = doubled (encode cs) := by
  induction cs with
  | nil => rfl
  | cons c rest ih =>
      have hstep : doubleQuotes (c :: rest) =
          (if c = '"' then ['"', '"'] else [c]) ++ doubleQuotes rest :=
        List.flatMap_cons
      have hbytes : doubled (encode (c :: rest)) =
          doubled (String.utf8EncodeChar c) ++ doubled (encode rest) := by
        rw [encode_cons]
        exact List.flatMap_append
      rw [hstep, hbytes, encode_append, ih]
      congr 1
      by_cases hc : c = '"'
      · subst hc
        decide
      · have hascii : Utf8.onAscii (fun b => b = quote) c = false :=
          (onAscii_byte c '"' (by decide)).trans (decide_eq_false hc)
        have hclass : ∀ b : UInt8, decide (b = quote) = true → b.toNat < 0x80 :=
          fun b hb => by
            rw [of_decide_eq_true hb]
            decide
        rcases Utf8.encodeChar_cases hclass c with ⟨htrue, _⟩ | ⟨_, hnone⟩
        · rw [hascii] at htrue
          cases htrue
        · rw [if_neg hc, encode_cons, encode_nil, List.append_nil,
            doubled_eq_self]
          exact fun b hb => of_decide_eq_false (hnone b hb)

/-! ## Spellings -/

theorem any_isReserved_encode (field : List Char) :
    (encode field).any isReserved = field.any needsQuotes := by
  rw [Utf8.any_encode toNat_lt_of_isReserved]
  exact congrArg (field.any ·) (funext fun c => (needsQuotes_eq c).symm)

theorem spellsField_fieldText (field : List Char) :
    SpellsField (encode (fieldText field)) (encode field) := by
  rw [fieldText]
  split
  · have hbytes : encode ('"' :: doubleQuotes field ++ ['"']) =
        quote :: (doubled (encode field) ++ [quote]) := by
      rw [List.cons_append, encode_cons, encode_append, encode_doubleQuotes]
      rfl
    rw [hbytes]
    exact .quoted _
  · next hplain =>
    rw [← any_isReserved_encode, Bool.not_eq_true, List.any_eq_false] at hplain
    have hfree : ∀ x ∈ encode field, x ≠ quote ∧ endsField x = false :=
      fun x hx => by simpa [isReserved] using hplain x hx
    refine .plain (fun x hx => (hfree x hx).2) fun hquote => ?_
    exact (hfree quote (List.mem_of_mem_head? hquote)).1 rfl

theorem encode_recordText_singleton (field : List Char) :
    encode (recordText [field]) = encode (fieldText field) ++ [lineFeed] := by
  rw [recordText, List.map_singleton, List.intercalate_singleton, encode_append]
  rfl

theorem encode_recordText_cons_cons (first second : List Char)
    (fields : List (List Char)) :
    encode (recordText (first :: second :: fields)) =
      encode (fieldText first) ++ comma ::
        encode (recordText (second :: fields)) := by
  rw [recordText, recordText, List.map_cons, List.map_cons,
    List.intercalate_cons_cons, List.append_assoc, List.append_assoc,
    encode_append]
  rfl

theorem spellsRecord_recordText {fields : List (List Char)}
    (hne : fields ≠ []) :
    ∃ bytes, encode (recordText fields) = bytes ++ [lineFeed] ∧
      SpellsRecord bytes (fields.map encode) := by
  induction fields with
  | nil => contradiction
  | cons first later ih =>
      cases later with
      | nil =>
          exact ⟨_, encode_recordText_singleton first,
            .single (spellsField_fieldText first)⟩
      | cons second fields =>
          obtain ⟨bytes, hbytes, hspells⟩ := ih (List.cons_ne_nil second fields)
          refine ⟨encode (fieldText first) ++ comma :: bytes, ?_,
            .cons (spellsField_fieldText first) hspells⟩
          rw [encode_recordText_cons_cons, hbytes, List.append_assoc,
            List.cons_append]

/-- A record of several fields has bytes before its line end. -/
theorem ne_nil_of_spellsRecord {bytes first second : List UInt8}
    {fields : List (List UInt8)}
    (h : SpellsRecord bytes (first :: second :: fields)) : bytes ≠ [] := by
  cases h
  simp

theorem spellsRecords_flatMap {records : List (List (List Char))}
    (hwide : ∀ fields ∈ records, 2 ≤ fields.length) :
    SpellsRecords (encode (records.flatMap recordText))
      (records.map (·.map encode)) := by
  induction records with
  | nil => exact .nil
  | cons fields later ih =>
      obtain ⟨hfields, hlater⟩ := List.forall_mem_cons.1 hwide
      match fields, hfields with
      | first :: second :: fields, _ =>
          obtain ⟨bytes, hbytes, hspells⟩ :=
            spellsRecord_recordText (List.cons_ne_nil first (second :: fields))
          rw [List.flatMap_cons, encode_append, hbytes, List.append_assoc,
            List.singleton_append]
          exact .cons hspells (ne_nil_of_spellsRecord hspells)
            (by decide) (ih hlater)

end BenchReport.Csv
