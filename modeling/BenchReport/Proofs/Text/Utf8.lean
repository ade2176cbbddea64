import BenchReport.Text.Blank
import BenchReport.Text.Utf8
import Mathlib.Data.List.Forall2
import Mathlib.Data.List.Induction

/-!
# Encoded text decodes to itself

A character is encoded in one to four bytes, and the first of them tells the
bounds of those that follow. The bounds are where the two sides could disagree:
they are narrower after the first bytes of the longest gaps in the encoding, to
keep out overlong forms, surrogates and what lies past the last code point, and
a character is none of these. So the first piece of an encoded text is its
first character, and decoding takes one character after the other.

Below 0x80, bytes stand for the characters of their own code points and occur
nowhere else; this is what lets a reader of bytes look for a character.
-/

namespace BenchReport.Utf8

/-- Whether a byte keeps within a pair of bounds. -/
def Between (b : UInt8) (bound : UInt8 × UInt8) : Prop :=
  bound.1 ≤ b ∧ b ≤ bound.2

theorem within_append {tail : List UInt8} {bounds : List (UInt8 × UInt8)}
    (h : List.Forall₂ Between tail bounds) (rest : List UInt8) :
    within bounds (tail ++ rest) = tail := by
  induction h with
  | nil => cases rest <;> rfl
  | cons hb _ ih =>
      obtain ⟨hleast, hgreatest⟩ := hb
      simp only [List.cons_append, within, hleast, hgreatest, decide_true,
        Bool.and_self, if_true, ih]

theorem firstPiece_append {first : UInt8} {tail : List UInt8}
    {bounds : List (UInt8 × UInt8)} (hbounds : following? first = some bounds)
    (htail : List.Forall₂ Between tail bounds) (rest : List UInt8) :
    firstPiece first (tail ++ rest) =
      (tail, .character (assemble first tail) (tail.length + 1)) := by
  simp only [firstPiece, hbounds, within_append htail, htail.length_eq, if_true]

/-! ## The bounds after a first byte -/

theorem following?_eq (first : UInt8) :
    following? first =
      if first.toNat < 0x80 then some []
      else if first.toNat < 0xC2 then none
      else if first.toNat < 0xE0 then some [(0x80, 0xBF)]
      else if first.toNat = 0xE0 then some [(0xA0, 0xBF), (0x80, 0xBF)]
      else if first.toNat = 0xED then some [(0x80, 0x9F), (0x80, 0xBF)]
      else if first.toNat < 0xF0 then some [(0x80, 0xBF), (0x80, 0xBF)]
      else if first.toNat = 0xF0 then
        some [(0x90, 0xBF), (0x80, 0xBF), (0x80, 0xBF)]
      else if first.toNat < 0xF4 then
        some [(0x80, 0xBF), (0x80, 0xBF), (0x80, 0xBF)]
      else if first.toNat = 0xF4 then
        some [(0x80, 0x8F), (0x80, 0xBF), (0x80, 0xBF)]
      else none := by
  simp only [following?, UInt8.lt_iff_toNat_lt, ← UInt8.toNat_inj,
    UInt8.reduceToNat]

theorem between_iff {b low high : UInt8} :
    Between b (low, high) ↔ low.toNat ≤ b.toNat ∧ b.toNat ≤ high.toNat :=
  Iff.rfl

theorem following?_two {a b : UInt8} {v : Nat} (hlow : 0x80 ≤ v)
    (hhigh : v < 0x800) (ha : a.toNat = 0xC0 + v / 64)
    (hb : b.toNat = 0x80 + v % 64) :
    ∃ bounds, following? a = some bounds ∧ List.Forall₂ Between [b] bounds := by
  rw [following?_eq, if_neg (by omega), if_neg (by omega), if_pos (by omega)]
  refine ⟨_, rfl, ?_⟩
  simp only [List.forall₂_cons, List.Forall₂.nil, between_iff,
    UInt8.reduceToNat, and_true]
  omega

/-- Three bytes: `0xE0` keeps out what two bytes hold, `0xED` the surrogates. -/
theorem following?_three {a b c : UInt8} {v : Nat} (hlow : 0x800 ≤ v)
    (hhigh : v < 0x10000) (hsurrogate : v < 0xD800 ∨ 0xDFFF < v)
    (ha : a.toNat = 0xE0 + v / 4096) (hb : b.toNat = 0x80 + v / 64 % 64)
    (hc : c.toNat = 0x80 + v % 64) :
    ∃ bounds, following? a = some bounds ∧
      List.Forall₂ Between [b, c] bounds := by
  rw [following?_eq, if_neg (by omega), if_neg (by omega), if_neg (by omega)]
  split
  · refine ⟨_, rfl, ?_⟩
    simp only [List.forall₂_cons, List.Forall₂.nil, between_iff,
      UInt8.reduceToNat, and_true]
    omega
  · split
    · refine ⟨_, rfl, ?_⟩
      simp only [List.forall₂_cons, List.Forall₂.nil, between_iff,
        UInt8.reduceToNat, and_true]
      omega
    · rw [if_pos (by omega)]
      refine ⟨_, rfl, ?_⟩
      simp only [List.forall₂_cons, List.Forall₂.nil, between_iff,
        UInt8.reduceToNat, and_true]
      omega

/-- Four bytes: `0xF0` keeps out what three bytes hold, `0xF4` what is no code
point. -/
theorem following?_four {a b c d : UInt8} {v : Nat} (hlow : 0x10000 ≤ v)
    (hhigh : v < 0x110000) (ha : a.toNat = 0xF0 + v / 262144)
    (hb : b.toNat = 0x80 + v / 4096 % 64) (hc : c.toNat = 0x80 + v / 64 % 64)
    (hd : d.toNat = 0x80 + v % 64) :
    ∃ bounds, following? a = some bounds ∧
      List.Forall₂ Between [b, c, d] bounds := by
  rw [following?_eq, if_neg (by omega), if_neg (by omega), if_neg (by omega),
    if_neg (by omega), if_neg (by omega), if_neg (by omega)]
  split
  · refine ⟨_, rfl, ?_⟩
    simp only [List.forall₂_cons, List.Forall₂.nil, between_iff,
      UInt8.reduceToNat, and_true]
    omega
  · split
    · refine ⟨_, rfl, ?_⟩
      simp only [List.forall₂_cons, List.Forall₂.nil, between_iff,
        UInt8.reduceToNat, and_true]
      omega
    · rw [if_pos (by omega)]
      refine ⟨_, rfl, ?_⟩
      simp only [List.forall₂_cons, List.Forall₂.nil, between_iff,
        UInt8.reduceToNat, and_true]
      omega

/-! ## The first piece of an encoded text -/

theorem firstPiece_one {a : UInt8} (v : Nat) (hhigh : v < 0x80)
    (ha : a.toNat = v) (rest : List UInt8) :
    firstPiece a rest = ([], .character (.ofNat v) 1) := by
  have hbounds : following? a = some [] := by
    rw [following?_eq, if_pos (by omega)]
  have hvalue : assemble a [] = .ofNat v := congrArg Char.ofNat ha
  have hpiece := firstPiece_append hbounds .nil rest
  rwa [hvalue] at hpiece

theorem firstPiece_two {a b : UInt8} (v : Nat) (hlow : 0x80 ≤ v)
    (hhigh : v < 0x800) (ha : a.toNat = 0xC0 + v / 64)
    (hb : b.toNat = 0x80 + v % 64) (rest : List UInt8) :
    firstPiece a ([b] ++ rest) = ([b], .character (.ofNat v) 2) := by
  obtain ⟨bounds, hbounds, hbetween⟩ := following?_two hlow hhigh ha hb
  have hvalue : assemble a [b] = .ofNat v := by
    show Char.ofNat (a.toNat % 32 * 64 + b.toNat % 64) = _
    congr 1
    omega
  have hpiece := firstPiece_append hbounds hbetween rest
  rwa [hvalue] at hpiece

theorem firstPiece_three {a b c : UInt8} (v : Nat) (hlow : 0x800 ≤ v)
    (hhigh : v < 0x10000) (hsurrogate : v < 0xD800 ∨ 0xDFFF < v)
    (ha : a.toNat = 0xE0 + v / 4096) (hb : b.toNat = 0x80 + v / 64 % 64)
    (hc : c.toNat = 0x80 + v % 64) (rest : List UInt8) :
    firstPiece a ([b, c] ++ rest) = ([b, c], .character (.ofNat v) 3) := by
  obtain ⟨bounds, hbounds, hbetween⟩ :=
    following?_three hlow hhigh hsurrogate ha hb hc
  have hvalue : assemble a [b, c] = .ofNat v := by
    show Char.ofNat ((a.toNat % 16 * 64 + b.toNat % 64) * 64 + c.toNat % 64) = _
    congr 1
    omega
  have hpiece := firstPiece_append hbounds hbetween rest
  rwa [hvalue] at hpiece

theorem firstPiece_four {a b c d : UInt8} (v : Nat) (hlow : 0x10000 ≤ v)
    (hhigh : v < 0x110000) (ha : a.toNat = 0xF0 + v / 262144)
    (hb : b.toNat = 0x80 + v / 4096 % 64) (hc : c.toNat = 0x80 + v / 64 % 64)
    (hd : d.toNat = 0x80 + v % 64) (rest : List UInt8) :
    firstPiece a ([b, c, d] ++ rest) =
      ([b, c, d], .character (.ofNat v) 4) := by
  obtain ⟨bounds, hbounds, hbetween⟩ := following?_four hlow hhigh ha hb hc hd
  have hvalue : assemble a [b, c, d] = .ofNat v := by
    show Char.ofNat
        (((a.toNat % 8 * 64 + b.toNat % 64) * 64 + c.toNat % 64) * 64
          + d.toNat % 64) = _
    congr 1
    omega
  have hpiece := firstPiece_append hbounds hbetween rest
  rwa [hvalue] at hpiece

theorem firstPiece_encodeChar (c : Char) :
    ∃ first tail, String.utf8EncodeChar c = first :: tail ∧ ∀ rest,
      firstPiece first (tail ++ rest) =
        (tail, .character c (tail.length + 1)) := by
  have hvalid : c.toNat < 0xD800 ∨ 0xDFFF < c.toNat ∧ c.toNat < 0x110000 :=
    c.valid
  have hbyte : ∀ n, n < 256 → (UInt8.ofNat n).toNat = n := fun n hn => by
    rw [UInt8.toNat_ofNat', Nat.mod_eq_of_lt hn]
  have hval : c.val.toNat = c.toNat := rfl
  have hchar := Char.ofNat_toNat c
  simp only [String.utf8EncodeChar, hval]
  generalize c.toNat = v at *
  subst hchar
  split
  · exact ⟨_, _, rfl, firstPiece_one v (by omega) (hbyte _ (by omega))⟩
  · split
    · refine ⟨_, _, rfl, firstPiece_two v (by omega) (by omega) ?_ ?_⟩ <;>
        rw [hbyte _ (by omega)] <;> omega
    · split
      · refine ⟨_, _, rfl,
          firstPiece_three v (by omega) (by omega) (by omega) ?_ ?_ ?_⟩ <;>
          rw [hbyte _ (by omega)] <;> omega
      · refine ⟨_, _, rfl,
          firstPiece_four v (by omega) (by omega) ?_ ?_ ?_ ?_⟩ <;>
          rw [hbyte _ (by omega)] <;> omega

/-! ## Decoding -/

@[simp]
theorem encode_nil : encode [] = [] := rfl

theorem encode_cons (c : Char) (cs : List Char) :
    encode (c :: cs) = String.utf8EncodeChar c ++ encode cs := List.flatMap_cons

theorem encode_append (cs ds : List Char) :
    encode (cs ++ ds) = encode cs ++ encode ds :=
  List.flatMap_append

theorem pieces_encode_cons (c : Char) (cs : List Char) :
    ∃ size, pieces (encode (c :: cs)) = .character c size ::
      pieces (encode cs) := by
  obtain ⟨first, tail, hbytes, hpiece⟩ := firstPiece_encodeChar c
  refine ⟨tail.length + 1, ?_⟩
  rw [encode_cons, hbytes, List.cons_append, pieces, hpiece]
  simp only [List.drop_left]

theorem characters_pieces_encode (cs : List Char) (consumed : Nat) :
    characters consumed (pieces (encode cs)) = .ok cs := by
  induction cs generalizing consumed with
  | nil => rw [encode_nil, pieces, characters]
  | cons c rest ih =>
      obtain ⟨size, hpieces⟩ := pieces_encode_cons c rest
      rw [hpieces, characters, ih]
      rfl

theorem decode_encode (cs : List Char) : decode (encode cs) = .ok cs :=
  characters_pieces_encode cs 0

/-! ## Bytes that stand for characters -/

theorem encodeChar_ascii {c : Char} (h : c.toNat < 0x80) :
    String.utf8EncodeChar c = [.ofNat c.toNat] :=
  if_pos (Nat.le_of_lt_succ h)

theorem le_of_mem_encodeChar {c : Char} (h : 0x80 ≤ c.toNat) {b : UInt8}
    (hb : b ∈ String.utf8EncodeChar c) : 0x80 ≤ b.toNat := by
  have hbyte : ∀ n, 0x80 ≤ n → n < 0x100 → 0x80 ≤ (UInt8.ofNat n).toNat :=
    fun n hlow hhigh => by rwa [UInt8.toNat_ofNat', Nat.mod_eq_of_lt hhigh]
  have hval : c.val.toNat = c.toNat := rfl
  simp only [String.utf8EncodeChar, hval] at hb
  rw [if_neg (by omega)] at hb
  split at hb
  · simp only [List.mem_cons, List.not_mem_nil, or_false] at hb
    rcases hb with rfl | rfl <;> exact hbyte _ (by omega) (by omega)
  · split at hb
    · simp only [List.mem_cons, List.not_mem_nil, or_false] at hb
      rcases hb with rfl | rfl | rfl <;> exact hbyte _ (by omega) (by omega)
    · simp only [List.mem_cons, List.not_mem_nil, or_false] at hb
      rcases hb with
        rfl | rfl | rfl | rfl <;> exact hbyte _ (by omega) (by omega)

/-- The characters whose bytes are in a class of bytes below 0x80. -/
def onAscii (p : UInt8 → Bool) (c : Char) : Bool :=
  c.toNat < 0x80 && p (.ofNat c.toNat)

variable {p : UInt8 → Bool}

/-- A character of such a class is one byte of it, any other has none. -/
theorem encodeChar_cases (hp : ∀ b, p b → b.toNat < 0x80) (c : Char) :
    (onAscii p c = true ∧ ∃ b, String.utf8EncodeChar c = [b] ∧ p b = true) ∨
      (onAscii p c = false ∧ ∀ b ∈ String.utf8EncodeChar c, p b = false) := by
  rcases Nat.lt_or_ge c.toNat 0x80 with h | h
  · rw [encodeChar_ascii h]
    cases hclass : p (.ofNat c.toNat) with
    | true => exact .inl ⟨by simp [onAscii, h, hclass], _, rfl, hclass⟩
    | false => exact .inr ⟨by simp [onAscii, hclass], by simpa using hclass⟩
  · refine .inr ⟨by simp [onAscii, Nat.not_lt.2 h], fun b hb => ?_⟩
    have hbyte := le_of_mem_encodeChar h hb
    exact Bool.eq_false_iff.2 fun hclass =>
      absurd (hp b hclass) (Nat.not_lt.2 hbyte)

theorem any_encode (hp : ∀ b, p b → b.toNat < 0x80) (cs : List Char) :
    (encode cs).any p = cs.any (onAscii p) := by
  induction cs with
  | nil => rfl
  | cons c rest ih =>
      rw [encode_cons, List.any_append, ih, List.any_cons]
      rcases encodeChar_cases hp c with ⟨hc, b, hbytes, hb⟩ | ⟨hc, hbytes⟩
      · rw [hbytes, hc]
        simp [hb]
      · have hnone : (String.utf8EncodeChar c).any p = false :=
          List.any_eq_false.2 fun b hb => by simp [hbytes b hb]
        rw [hnone, hc]

theorem dropWhile_encode (hp : ∀ b, p b → b.toNat < 0x80) (cs : List Char) :
    (encode cs).dropWhile p = encode (cs.dropWhile (onAscii p)) := by
  induction cs with
  | nil => rfl
  | cons c rest ih =>
      rw [encode_cons]
      rcases encodeChar_cases hp c with ⟨hc, b, hbytes, hb⟩ | ⟨hc, hbytes⟩
      · rw [hbytes, List.singleton_append, List.dropWhile_cons_of_pos hb,
          List.dropWhile_cons_of_pos hc, ih]
      · obtain ⟨b, tail, hcons⟩ := List.exists_cons_of_ne_nil
          (String.utf8EncodeChar_ne_nil : String.utf8EncodeChar c ≠ [])
        have hb : ¬ p b = true := by
          simp [hbytes b (hcons ▸ List.mem_cons_self ..)]
        rw [List.dropWhile_cons_of_neg (by simp [hc]), encode_cons, hcons,
          List.cons_append, List.dropWhile_cons_of_neg hb]

theorem reverse_dropWhile_encode (hp : ∀ b, p b → b.toNat < 0x80)
    (cs : List Char) :
    ((encode cs).reverse.dropWhile p).reverse =
      encode ((cs.reverse.dropWhile (onAscii p)).reverse) := by
  induction cs using List.reverseRecOn with
  | nil => rfl
  | append_singleton rest c ih =>
      have hlast :
          encode (rest ++ [c]) = encode rest ++ String.utf8EncodeChar c := by
        rw [encode_append, encode_cons, encode_nil, List.append_nil]
      rw [hlast, List.reverse_append, List.reverse_append,
        List.reverse_singleton, List.singleton_append]
      rcases encodeChar_cases hp c with ⟨hc, b, hbytes, hb⟩ | ⟨hc, hbytes⟩
      · rw [hbytes, List.reverse_singleton, List.singleton_append,
          List.dropWhile_cons_of_pos hb, List.dropWhile_cons_of_pos hc, ih]
      · obtain ⟨b, tail, hcons⟩ := List.exists_cons_of_ne_nil
          (List.reverse_ne_nil_iff.2
            (String.utf8EncodeChar_ne_nil : String.utf8EncodeChar c ≠ []))
        have hb : ¬ p b = true := by
          have hmem : b ∈ (String.utf8EncodeChar c).reverse :=
            hcons ▸ List.mem_cons_self ..
          simp [hbytes b (List.mem_reverse.1 hmem)]
        rw [List.dropWhile_cons_of_neg (by simp [hc]), hcons, List.cons_append,
          List.dropWhile_cons_of_neg hb, ← List.cons_append, ← hcons,
          List.reverse_append, List.reverse_reverse, List.reverse_reverse,
          List.reverse_cons, List.reverse_reverse, hlast]

theorem trimBoth_encode (hp : ∀ b, p b → b.toNat < 0x80) (cs : List Char) :
    Text.trimBoth p (encode cs) = encode (Text.trimBoth (onAscii p) cs) := by
  rw [Text.trimBoth, dropWhile_encode hp, reverse_dropWhile_encode hp,
    Text.trimBoth]

end BenchReport.Utf8
