import BenchReport.Text.Utf8

/-!
# Texts compare as their bytes do

Sorting encoded texts byte by byte is sorting them by code points. An encoded
character never begins another one, so two texts whose characters first differ
at some place have bytes that first differ within these two characters, and it
is enough to compare those. A character of more bytes has the greater first
byte. Among characters of as many bytes, the bytes hold the digits of the code
points to the base of 64, the highest digit first (`digits_lt_digits`).
-/

namespace BenchReport.Utf8

theorem ofNat_lt_ofNat {m n : Nat} (hm : m < 256) (hn : n < 256) :
    UInt8.ofNat m < UInt8.ofNat n ↔ m < n := by
  rw [UInt8.lt_iff_toNat_lt, UInt8.toNat_ofNat', UInt8.toNat_ofNat',
    Nat.mod_eq_of_lt hm, Nat.mod_eq_of_lt hn]

theorem ofNat_eq_ofNat {m n : Nat} (hm : m < 256) (hn : n < 256) :
    UInt8.ofNat m = UInt8.ofNat n ↔ m = n := by
  rw [← UInt8.toNat_inj, UInt8.toNat_ofNat', UInt8.toNat_ofNat',
    Nat.mod_eq_of_lt hm, Nat.mod_eq_of_lt hn]

theorem lastDigit_lt {v w : Nat} (h : v < w) :
    v / 64 < w / 64 ∨ v / 64 = w / 64 ∧ v % 64 < w % 64 := by omega

/-- The number that is less has the lesser digit where four digits first
differ. -/
theorem digits_lt_digits {v w : Nat} (h : v < w) :
    v / 262144 < w / 262144 ∨ v / 262144 = w / 262144 ∧
      (v / 4096 % 64 < w / 4096 % 64 ∨ v / 4096 % 64 = w / 4096 % 64 ∧
        (v / 64 % 64 < w / 64 % 64 ∨ v / 64 % 64 = w / 64 % 64 ∧
          v % 64 < w % 64)) := by
  have hfourth : ∀ n, n / 262144 = n / 64 / 64 / 64 := by omega
  have hthird : ∀ n, n / 4096 = n / 64 / 64 := by omega
  rw [hfourth, hfourth, hthird, hthird]
  rcases lastDigit_lt h with h | ⟨hsame, hlast⟩
  · rcases lastDigit_lt h with h | ⟨hsame, hlast⟩
    · rcases lastDigit_lt h with h | ⟨hsame, hlast⟩
      · exact .inl h
      · exact .inr ⟨hsame, .inl hlast⟩
    · rw [hsame]
      exact .inr ⟨rfl, .inr ⟨rfl, .inl hlast⟩⟩
  · rw [hsame]
    exact .inr ⟨rfl, .inr ⟨rfl, .inr ⟨rfl, hlast⟩⟩⟩

/-- A lesser character has lesser bytes, whatever follows the two. -/
theorem encodeChar_append_lt {c d : Char} (h : c < d)
    (later other : List UInt8) :
    String.utf8EncodeChar c ++ later < String.utf8EncodeChar d ++ other := by
  have hbound : ∀ a : Char, a.val.toNat < 0x110000 := fun a => by
    rcases a.valid with hlow | ⟨-, hhigh⟩
    · exact Nat.lt_trans hlow (by decide)
    · exact hhigh
  have hlow := hbound c
  have hhigh := hbound d
  have hlt : c.val.toNat < d.val.toNat := h
  simp only [String.utf8EncodeChar]
  generalize c.val.toNat = v at *
  generalize d.val.toNat = w at *
  by_cases hfour : v ≤ 65535
  · -- The lesser one has at most three bytes.
    split
    all_goals repeat' split
    all_goals
      simp (disch := omega) only [List.cons_append, List.nil_append,
        List.cons_lt_cons_iff, ofNat_lt_ofNat, ofNat_eq_ofNat]
      omega
  · have hdigits := digits_lt_digits hlt
    repeat rw [if_neg (by omega)]
    simp (disch := omega) only [List.cons_append, List.nil_append,
      List.cons_lt_cons_iff, ofNat_lt_ofNat, ofNat_eq_ofNat]
    have hv : v / 262144 % 8 = v / 262144 := by omega
    have hw : w / 262144 % 8 = w / 262144 := by omega
    simp only [hv, hw, Nat.add_lt_add_iff_right, Nat.add_right_cancel_iff]
    rcases hdigits with
      hfirst | ⟨hfirst, hsecond | ⟨hsecond, hthird | ⟨hthird, hlast⟩⟩⟩
    · exact .inl hfirst
    · exact .inr ⟨hfirst, .inl hsecond⟩
    · exact .inr ⟨hfirst, .inr ⟨hsecond, .inl hthird⟩⟩
    · exact .inr ⟨hfirst, .inr ⟨hsecond, .inr ⟨hthird, .inl hlast⟩⟩⟩

theorem encode_lt_encode {cs ds : List Char} (h : cs < ds) :
    encode cs < encode ds := by
  induction cs generalizing ds with
  | nil =>
      cases ds with
      | nil => exact absurd h (List.lt_irrefl [])
      | cons d rest =>
          obtain ⟨b, tail, hbytes⟩ := List.exists_cons_of_ne_nil
            (String.utf8EncodeChar_ne_nil : String.utf8EncodeChar d ≠ [])
          show [] < String.utf8EncodeChar d ++ encode rest
          rw [hbytes]
          exact List.nil_lt_cons b _
  | cons c rest ih =>
      cases ds with
      | nil => exact absurd h (List.not_lt_nil _)
      | cons d others =>
          show String.utf8EncodeChar c ++ encode rest <
              String.utf8EncodeChar d ++ encode others
          rcases List.cons_lt_cons_iff.1 h with hlt | ⟨rfl, hrest⟩
          · exact encodeChar_append_lt hlt _ _
          · exact List.append_left_lt (ih hrest)

theorem encode_lt_encode_iff {cs ds : List Char} :
    encode cs < encode ds ↔ cs < ds := by
  constructor
  · intro h
    apply Decidable.byContradiction
    intro hnot
    rcases List.le_iff_lt_or_eq.1 (List.not_lt.1 hnot) with hlt | heq
    · exact List.lt_asymm h (encode_lt_encode hlt)
    · rw [heq] at h
      exact List.lt_irrefl _ h
  · exact encode_lt_encode

end BenchReport.Utf8

namespace BenchReport

/-- Whether a text comes before another one by the bytes of their encodings. -/
def BytesBefore (a b : String) : Prop :=
  Utf8.encode a.toList < Utf8.encode b.toList

theorem bytesBefore_iff {a b : String} : BytesBefore a b ↔ a < b := by
  rw [BytesBefore, Utf8.encode_lt_encode_iff, String.lt_iff]

end BenchReport
