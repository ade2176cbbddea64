import BenchReport.Proofs.Text.Utf8
import Mathlib.Data.List.TakeWhile

/-!
# What decodes is the encoding of its text

Decoding accepts no bytes but those that some text is encoded in, so a field of
a file is text exactly if it is the encoding of one. The bounds on the bytes
that follow a first one are not only wide enough for every character: they let
nothing else through. Bytes that keep within them hold the digits of a code
point in the range that needs as many bytes and is no surrogate, and encoding it
gives them back (`encodeChar_assemble`).

A class of bytes below 0x80 can be dropped from the ends before decoding or
after it, since these bytes are characters of their own wherever they stand.
-/

namespace BenchReport

/-! ## Texts without their ends -/

namespace Text

variable {α : Type} {p q : α → Bool}

theorem exists_append_trimBoth (p : α → Bool) (l : List α) :
    ∃ front back, l = front ++ trimBoth p l ++ back ∧ (∀ x ∈ front, p x) ∧
      ∀ x ∈ back, p x := by
  let middle := l.dropWhile p
  refine ⟨l.takeWhile p, (middle.reverse.takeWhile p).reverse, ?_, ?_, ?_⟩
  · have hmiddle :
        trimBoth p l ++ (middle.reverse.takeWhile p).reverse = middle := by
      rw [trimBoth, ← List.reverse_append, List.takeWhile_append_dropWhile,
        List.reverse_reverse]
    rw [List.append_assoc, hmiddle, List.takeWhile_append_dropWhile]
  · exact fun x hx => List.mem_takeWhile_imp hx
  · exact fun x hx => List.mem_takeWhile_imp (List.mem_reverse.1 hx)

theorem trimBoth_append {front l back : List α} (hfront : ∀ x ∈ front, q x)
    (hback : ∀ x ∈ back, q x) :
    trimBoth q (front ++ l ++ back) = trimBoth q l := by
  have hreverse : ∀ x ∈ back.reverse, q x :=
    fun x hx => hback x (List.mem_reverse.1 hx)
  have hnone : back.dropWhile q = [] := List.dropWhile_eq_nil_iff.2 hback
  rw [trimBoth, List.append_assoc, List.dropWhile_append_of_pos hfront,
    List.dropWhile_append]
  split
  · next hl =>
    rw [hnone, trimBoth, List.isEmpty_iff.1 hl]
  · rw [List.reverse_append, List.dropWhile_append_of_pos hreverse, trimBoth]

/-- What is dropped with a class of characters can be dropped before with a
narrower one. -/
theorem trimBoth_trimBoth (h : ∀ x, p x → q x) (l : List α) :
    trimBoth q (trimBoth p l) = trimBoth q l := by
  obtain ⟨front, back, hl, hfront, hback⟩ := exists_append_trimBoth p l
  conv_rhs => rw [hl]
  exact (trimBoth_append (fun x hx => h x (hfront x hx)) fun x hx =>
    h x (hback x hx)).symm

end Text

namespace Utf8

/-! ## The bytes of a character -/

theorem toNat_ofNat_of_isScalar {v : Nat}
    (h : v < 0xD800 ∨ 0xDFFF < v ∧ v < 0x110000) :
    (Char.ofNat v).toNat = v := by
  have hvalid : v.isValidChar := h
  rw [Char.ofNat, dif_pos hvalid]
  rfl

theorem eq_ofNat {a : UInt8} {n : Nat} (h : a.toNat = n) :
    UInt8.ofNat n = a := by
  rw [← h, UInt8.ofNat_toNat]

theorem encodeChar_one {a : UInt8} {v : Nat} (hhigh : v < 0x80)
    (ha : a.toNat = v) :
    String.utf8EncodeChar (.ofNat v) = [a] := by
  have hval : (Char.ofNat v).val.toNat = v := toNat_ofNat_of_isScalar (by omega)
  simp only [String.utf8EncodeChar, hval]
  rw [if_pos (by omega), eq_ofNat ha]

theorem encodeChar_two {a b : UInt8} {v : Nat} (hlow : 0x80 ≤ v)
    (hhigh : v < 0x800) (ha : a.toNat = 0xC0 + v / 64)
    (hb : b.toNat = 0x80 + v % 64) :
    String.utf8EncodeChar (.ofNat v) = [a, b] := by
  have hval : (Char.ofNat v).val.toNat = v := toNat_ofNat_of_isScalar (by omega)
  simp only [String.utf8EncodeChar, hval]
  rw [if_neg (by omega), if_pos (by omega), eq_ofNat (a := a) (by omega),
    eq_ofNat (a := b) (by omega)]

theorem encodeChar_three {a b c : UInt8} {v : Nat} (hlow : 0x800 ≤ v)
    (hhigh : v < 0x10000) (hsurrogate : v < 0xD800 ∨ 0xDFFF < v)
    (ha : a.toNat = 0xE0 + v / 4096) (hb : b.toNat = 0x80 + v / 64 % 64)
    (hc : c.toNat = 0x80 + v % 64) :
    String.utf8EncodeChar (.ofNat v) = [a, b, c] := by
  have hval : (Char.ofNat v).val.toNat = v := toNat_ofNat_of_isScalar (by omega)
  simp only [String.utf8EncodeChar, hval]
  rw [if_neg (by omega), if_neg (by omega), if_pos (by omega),
    eq_ofNat (a := a) (by omega), eq_ofNat (a := b) (by omega),
    eq_ofNat (a := c) (by omega)]

theorem encodeChar_four {a b c d : UInt8} {v : Nat} (hlow : 0x10000 ≤ v)
    (hhigh : v < 0x110000) (ha : a.toNat = 0xF0 + v / 262144)
    (hb : b.toNat = 0x80 + v / 4096 % 64) (hc : c.toNat = 0x80 + v / 64 % 64)
    (hd : d.toNat = 0x80 + v % 64) :
    String.utf8EncodeChar (.ofNat v) = [a, b, c, d] := by
  have hval : (Char.ofNat v).val.toNat = v := toNat_ofNat_of_isScalar (by omega)
  simp only [String.utf8EncodeChar, hval]
  rw [if_neg (by omega), if_neg (by omega), if_neg (by omega),
    eq_ofNat (a := a) (by omega), eq_ofNat (a := b) (by omega),
    eq_ofNat (a := c) (by omega), eq_ofNat (a := d) (by omega)]

/-! ## The character of some bytes -/

theorem encodeChar_assemble_two {a b : UInt8}
    (ha : 0xC2 ≤ a.toNat ∧ a.toNat < 0xE0)
    (hb : 0x80 ≤ b.toNat ∧ b.toNat ≤ 0xBF) :
    String.utf8EncodeChar (assemble a [b]) = [a, b] := by
  show String.utf8EncodeChar (.ofNat (a.toNat % 32 * 64 + b.toNat % 64)) = _
  exact encodeChar_two (by omega) (by omega) (by omega) (by omega)

theorem encodeChar_assemble_three {a b c : UInt8}
    (ha : 0xE0 ≤ a.toNat ∧ a.toNat < 0xF0)
    (hb : 0x80 ≤ b.toNat ∧ b.toNat ≤ 0xBF)
    (hc : 0x80 ≤ c.toNat ∧ c.toNat ≤ 0xBF)
    (hshort : a.toNat = 0xE0 → 0xA0 ≤ b.toNat)
    (hsurrogate : a.toNat = 0xED → b.toNat ≤ 0x9F) :
    String.utf8EncodeChar (assemble a [b, c]) = [a, b, c] := by
  show String.utf8EncodeChar
    (.ofNat ((a.toNat % 16 * 64 + b.toNat % 64) * 64 + c.toNat % 64)) = _
  exact encodeChar_three (by omega) (by omega) (by omega) (by omega)
    (by omega) (by omega)

theorem encodeChar_assemble_four {a b c d : UInt8}
    (ha : 0xF0 ≤ a.toNat ∧ a.toNat ≤ 0xF4)
    (hb : 0x80 ≤ b.toNat ∧ b.toNat ≤ 0xBF)
    (hc : 0x80 ≤ c.toNat ∧ c.toNat ≤ 0xBF)
    (hd : 0x80 ≤ d.toNat ∧ d.toNat ≤ 0xBF)
    (hshort : a.toNat = 0xF0 → 0x90 ≤ b.toNat)
    (hlast : a.toNat = 0xF4 → b.toNat ≤ 0x8F) :
    String.utf8EncodeChar (assemble a [b, c, d]) = [a, b, c, d] := by
  show String.utf8EncodeChar
      (.ofNat (((a.toNat % 8 * 64 + b.toNat % 64) * 64 + c.toNat % 64) * 64
        + d.toNat % 64)) = _
  exact encodeChar_four (by omega) (by omega) (by omega) (by omega)
    (by omega) (by omega)

theorem encodeChar_assemble {first : UInt8} {tail : List UInt8}
    {bounds : List (UInt8 × UInt8)} (hbounds : following? first = some bounds)
    (htail : List.Forall₂ Between tail bounds) :
    String.utf8EncodeChar (assemble first tail) = first :: tail := by
  rw [following?_eq] at hbounds
  split at hbounds
  · next hone =>
    cases hbounds
    cases htail
    exact encodeChar_one hone rfl
  split at hbounds
  · cases hbounds
  -- The bounds in the order of the first bytes: one pair, two pairs,
  -- three pairs.
  split at hbounds
  · cases hbounds
    obtain _ | ⟨hb, _ | _⟩ := htail
    exact encodeChar_assemble_two (by omega) hb
  iterate 3
    split at hbounds
    · cases hbounds
      obtain _ | ⟨hb, _ | ⟨hc, _ | _⟩⟩ := htail
      simp only [between_iff, UInt8.reduceToNat] at hb hc
      exact encodeChar_assemble_three (by omega) (by omega) hc
        (by omega) (by omega)
  iterate 3
    split at hbounds
    · cases hbounds
      obtain _ | ⟨hb, _ | ⟨hc, _ | ⟨hd, _ | _⟩⟩⟩ := htail
      simp only [between_iff, UInt8.reduceToNat] at hb hc hd
      exact encodeChar_assemble_four (by omega) (by omega) hc hd
        (by omega) (by omega)
  cases hbounds

/-! ## Decoding -/

theorem forall₂_within (bounds : List (UInt8 × UInt8)) (bytes : List UInt8)
    (h : (within bounds bytes).length = bounds.length) :
    List.Forall₂ Between (within bounds bytes) bounds := by
  fun_induction within bounds bytes with
  | case1 least greatest bounds b bytes hb ih =>
      simp only [Bool.and_eq_true, decide_eq_true_eq] at hb
      exact .cons hb (ih (Nat.succ.inj h))
  | case2 => cases h
  | case3 bounds bytes hnone =>
      cases bounds with
      | nil => exact .nil
      | cons => cases h

theorem append_drop_within (bounds : List (UInt8 × UInt8))
    (bytes : List UInt8) :
    within bounds bytes ++ bytes.drop (within bounds bytes).length = bytes := by
  fun_induction within bounds bytes with
  | case1 least greatest bounds b bytes hb ih => exact congrArg (b :: ·) ih
  | case2 => rfl
  | case3 => rfl

theorem encodeChar_of_firstPiece {first : UInt8} {rest tail : List UInt8}
    {c : Char} {size : Nat}
    (h : firstPiece first rest = (tail, .character c size)) :
    String.utf8EncodeChar c = first :: tail ∧
      tail ++ rest.drop tail.length = rest := by
  rw [firstPiece] at h
  split at h
  · cases h
  · next bounds hbounds =>
    simp only at h
    split at h
    · next hlength =>
      cases h
      exact ⟨encodeChar_assemble hbounds (forall₂_within bounds rest hlength),
        append_drop_within bounds rest⟩
    · cases h

theorem encode_of_characters {bytes : List UInt8} {consumed : Nat}
    {cs : List Char} (h : characters consumed (pieces bytes) = .ok cs) :
    encode cs = bytes := by
  fun_induction pieces bytes generalizing consumed cs with
  | case1 =>
      cases h
      rfl
  | case2 first rest tail piece hpiece ih =>
      cases piece with
      | broken size => cases h
      | character c size =>
          obtain ⟨hchar, hrest⟩ := encodeChar_of_firstPiece hpiece
          rw [characters] at h
          cases hlater : characters (consumed + size)
            (pieces (rest.drop tail.length)) with
          | error e =>
              rw [hlater] at h
              cases h
          | ok later =>
              rw [hlater] at h
              cases h
              rw [encode_cons, hchar, ih hlater, List.cons_append, hrest]

theorem decode_eq_ok_iff {bytes : List UInt8} {cs : List Char} :
    decode bytes = .ok cs ↔ bytes = encode cs := by
  constructor
  · intro h
    exact (encode_of_characters h).symm
  · rintro rfl
    exact decode_encode cs

theorem encode_injective {cs ds : List Char} (h : encode cs = encode ds) :
    cs = ds :=
  Except.ok.inj ((decode_encode cs).symm.trans (decode_eq_ok_iff.2 h))

theorem encode_ascii {bytes : List UInt8} (h : ∀ b ∈ bytes, b.toNat < 0x80) :
    encode (bytes.map fun b => .ofNat b.toNat) = bytes := by
  induction bytes with
  | nil => rfl
  | cons b rest ih =>
      obtain ⟨hb, hrest⟩ := List.forall_mem_cons.1 h
      rw [List.map_cons, encode_cons, encodeChar_one hb rfl, ih hrest]
      rfl

theorem decode_trimBoth_eq_ok_iff {p : UInt8 → Bool}
    (hp : ∀ b, p b → b.toNat < 0x80) {bytes : List UInt8} {text : List Char} :
    decode (Text.trimBoth p bytes) = .ok text ↔
      ∃ cs, bytes = encode cs ∧ text = Text.trimBoth (onAscii p) cs := by
  rw [decode_eq_ok_iff]
  constructor
  · intro h
    obtain ⟨front, back, hbytes, hfront, hback⟩ :=
      Text.exists_append_trimBoth p bytes
    have hwhole : bytes = encode (front.map (fun b => .ofNat b.toNat) ++ text ++
        back.map fun b => .ofNat b.toNat) := by
      rw [encode_append, encode_append, encode_ascii fun b hb =>
        hp b (hfront b hb), encode_ascii fun b hb => hp b (hback b hb),
        ← h, ← hbytes]
    refine ⟨_, hwhole, encode_injective ?_⟩
    rw [← trimBoth_encode hp, ← hwhole, h]
  · rintro ⟨cs, rfl, rfl⟩
    exact trimBoth_encode hp cs

end Utf8

end BenchReport
