import BenchReport.Proofs.Text.Decoding
import Mathlib.Data.List.Infix

/-!
# Lossy decoding byte by byte

Bytes that are no text can be cut at any byte below 0x80 and decoded on both
sides by themselves (`decodeLossy_append_ascii`). A broken piece ends where a
byte does not keep within the bounds, and no bounds reach down to such a byte,
so no piece runs across it.

The same bytes are also the only ones that give the characters below 0x80: what
stands for a broken piece is no such character. So a word of them that is found
in the decoded text was there before, byte by byte (`infix_of_decodeLossy`).
-/

namespace BenchReport.Utf8

/-! ## Pieces end before a byte below 0x80 -/

theorem le_of_mem_bounds {first : UInt8} {bounds : List (UInt8 × UInt8)}
    (h : following? first = some bounds) :
    ∀ bound ∈ bounds, 0x80 ≤ bound.1.toNat := by
  rw [following?_eq] at h
  repeat' split at h
  all_goals cases h
  all_goals simp

theorem within_append_ascii {bounds : List (UInt8 × UInt8)} {b : UInt8}
    (hb : b.toNat < 0x80) (hbounds : ∀ bound ∈ bounds, 0x80 ≤ bound.1.toNat)
    (bytes later : List UInt8) :
    within bounds (bytes ++ b :: later) = within bounds bytes := by
  fun_induction within bounds bytes with
  | case1 least greatest bounds first bytes hfirst ih =>
      rw [List.cons_append, within, if_pos hfirst, ih fun bound hbound =>
        hbounds bound (List.mem_cons_of_mem _ hbound)]
  | case2 least greatest bounds first bytes hfirst =>
      rw [List.cons_append, within, if_neg hfirst]
  | case3 bounds bytes hnone =>
      cases bounds with
      | nil => cases bytes <;> rfl
      | cons bound rest =>
          cases bytes with
          | nil =>
              have hbound := hbounds bound (List.mem_cons_self ..)
              have hleast : ¬ bound.1 ≤ b := by
                rw [UInt8.le_iff_toNat_le]
                omega
              simp [within, hleast]
          | cons first bytes =>
              exact absurd rfl (hnone bound.1 bound.2 rest first bytes rfl)

theorem firstPiece_append_ascii {first b : UInt8} (hb : b.toNat < 0x80)
    (rest later : List UInt8) :
    firstPiece first (rest ++ b :: later) = firstPiece first rest := by
  rw [firstPiece, firstPiece]
  split
  · rfl
  · next bounds hbounds =>
    rw [within_append_ascii hb (le_of_mem_bounds hbounds)]

theorem length_firstPiece_le (first : UInt8) (rest : List UInt8) :
    (firstPiece first rest).1.length ≤ rest.length := by
  rw [firstPiece]
  split
  · exact Nat.zero_le _
  · next bounds _ =>
    have hlength := congrArg List.length (append_drop_within bounds rest)
    rw [List.length_append] at hlength
    dsimp only
    split <;> exact hlength ▸ Nat.le_add_right ..

theorem pieces_append_ascii {b : UInt8} (hb : b.toNat < 0x80)
    (bytes later : List UInt8) :
    pieces (bytes ++ b :: later) =
      pieces bytes ++ .character (.ofNat b.toNat) 1 :: pieces later := by
  fun_induction pieces bytes with
  | case1 => rw [List.nil_append, pieces, firstPiece_one b.toNat hb rfl]; rfl
  | case2 first rest tail piece hpiece ih =>
      have hlength := length_firstPiece_le first rest
      rw [hpiece] at hlength
      rw [List.cons_append, pieces, firstPiece_append_ascii hb, hpiece]
      dsimp only
      rw [List.drop_append_of_le_length hlength, ih, List.cons_append]

theorem decodeLossy_append_ascii {b : UInt8} (hb : b.toNat < 0x80)
    (bytes later : List UInt8) :
    decodeLossy (bytes ++ b :: later) =
      decodeLossy bytes ++ .ofNat b.toNat :: decodeLossy later := by
  rw [decodeLossy, pieces_append_ascii hb, List.map_append]
  rfl

theorem decodeLossy_encode (cs : List Char) : decodeLossy (encode cs) = cs := by
  induction cs with
  | nil => rw [encode_nil, decodeLossy, pieces, List.map_nil]
  | cons c rest ih =>
      obtain ⟨size, hpieces⟩ := pieces_encode_cons c rest
      rw [decodeLossy, hpieces, List.map_cons]
      exact congrArg (c :: ·) ih

/-! ## Words in decoded bytes -/

theorem decodeLossy_cons (first : UInt8) (rest : List UInt8) :
    ∃ c, decodeLossy (first :: rest) =
        c :: decodeLossy (rest.drop (firstPiece first rest).1.length) ∧
      (c.toNat < 0x80 → first = .ofNat c.toNat ∧
        (firstPiece first rest).1 = []) := by
  obtain ⟨tail, piece, hpiece⟩ :
    ∃ tail piece, firstPiece first rest = (tail, piece) :=
    ⟨_, _, rfl⟩
  rw [decodeLossy, pieces, hpiece]
  cases piece with
  | broken size => exact ⟨replacement, rfl, fun h => absurd h (by decide)⟩
  | character c size =>
      refine ⟨c, rfl, fun h => ?_⟩
      have hbytes := (encodeChar_of_firstPiece hpiece).1
      rw [encodeChar_ascii h] at hbytes
      obtain ⟨hfirst, htail⟩ := List.cons.inj hbytes
      exact ⟨hfirst.symm, htail.symm⟩

theorem prefix_of_decodeLossy {word : List Char}
    (hword : ∀ c ∈ word, c.toNat < 0x80) {bytes : List UInt8}
    (h : word <+: decodeLossy bytes) : encode word <+: bytes := by
  induction word generalizing bytes with
  | nil => exact List.nil_prefix
  | cons c word ih =>
      obtain ⟨hc, hword⟩ := List.forall_mem_cons.1 hword
      cases bytes with
      | nil =>
          rw [decodeLossy, pieces] at h
          exact absurd (List.prefix_nil.1 h) (List.cons_ne_nil _ _)
      | cons first rest =>
          obtain ⟨d, hdecoded, hascii⟩ := decodeLossy_cons first rest
          rw [hdecoded, List.cons_prefix_cons] at h
          obtain ⟨rfl, hrest⟩ := h
          obtain ⟨rfl, hnil⟩ := hascii hc
          rw [hnil] at hrest
          rw [encode_cons, encodeChar_ascii hc]
          exact List.cons_prefix_cons.2 ⟨rfl, ih hword hrest⟩

/-- A word below 0x80 is in a decoded text only if its bytes are in
the bytes. -/
theorem infix_of_decodeLossy {word : List Char}
    (hword : ∀ c ∈ word, c.toNat < 0x80) {bytes : List UInt8}
    (h : word <:+: decodeLossy bytes) : encode word <:+: bytes := by
  induction bytes using pieces.induct with
  | case1 =>
      rw [decodeLossy, pieces] at h
      rw [List.infix_nil.1 h]
      exact List.nil_infix
  | case2 first rest tail piece hpiece ih =>
      obtain ⟨d, hdecoded, -⟩ := decodeLossy_cons first rest
      rw [hpiece] at hdecoded
      have hcases := h
      rw [hdecoded, List.infix_cons_iff, ← hdecoded] at hcases
      rcases hcases with hhere | hlater
      · exact (prefix_of_decodeLossy hword hhere).isInfix
      · have hdrop :=
          (List.drop_suffix tail.length rest).trans
            (List.suffix_cons first rest)
        exact (ih hlater).trans hdrop.isInfix

end BenchReport.Utf8
