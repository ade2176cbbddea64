/-!
# UTF-8

Bytes fall into pieces: encoded characters, and broken pieces, each of them as
many bytes as could still have begun a character. Decoding puts a replacement
character for each broken piece; the strict form gives up at the first one.
-/

namespace BenchReport.Utf8

/-- The bytes of a text. -/
def encode (cs : List Char) : List UInt8 :=
  cs.flatMap String.utf8EncodeChar

/-- The least and the greatest value of each byte after the first one; none
where no character begins. -/
def following? (first : UInt8) : Option (List (UInt8 × UInt8)) :=
  if first < 0x80 then some []
  else if first < 0xC2 then none
  else if first < 0xE0 then some [(0x80, 0xBF)]
  else if first = 0xE0 then some [(0xA0, 0xBF), (0x80, 0xBF)]
  else if first = 0xED then some [(0x80, 0x9F), (0x80, 0xBF)]
  else if first < 0xF0 then some [(0x80, 0xBF), (0x80, 0xBF)]
  else if first = 0xF0 then some [(0x90, 0xBF), (0x80, 0xBF), (0x80, 0xBF)]
  else if first < 0xF4 then some [(0x80, 0xBF), (0x80, 0xBF), (0x80, 0xBF)]
  else if first = 0xF4 then some [(0x80, 0x8F), (0x80, 0xBF), (0x80, 0xBF)]
  else none

/-- The longest beginning of the bytes that keeps within the bounds. -/
def within : List (UInt8 × UInt8) → List UInt8 → List UInt8
  | (least, greatest) :: bounds, b :: bytes =>
    if least ≤ b && b ≤ greatest then b :: within bounds bytes else []
  | _, _ => []

/-- The part of the code point that the first of `size` bytes holds. -/
def leadValue (size : Nat) (first : UInt8) : Nat :=
  if size = 1 then first.toNat else first.toNat % Nat.pow 2 (7 - size)

/-- The character of a whole sequence of bytes. -/
def assemble (first : UInt8) (rest : List UInt8) : Char :=
  .ofNat (rest.foldl (fun value b => value * 64 + b.toNat % 64)
    (leadValue (rest.length + 1) first))

/-- A piece of a sequence of bytes. -/
inductive Piece where
  /-- A character, encoded in `size` bytes. -/
  | character (c : Char) (size : Nat)
  /-- Bytes that encode none. -/
  | broken (size : Nat)
deriving DecidableEq, Repr

/-- The bytes of the first piece that follow its first byte, and the piece. -/
def firstPiece (first : UInt8) (rest : List UInt8) : List UInt8 × Piece :=
  match following? first with
  | none => ([], .broken 1)
  | some bounds =>
    let tail := within bounds rest
    if tail.length = bounds.length then
      (tail, .character (assemble first tail) (tail.length + 1))
    else (tail, .broken (tail.length + 1))

/-- The pieces of a sequence of bytes, in order. -/
def pieces : List UInt8 → List Piece
  | [] => []
  | first :: rest =>
    let (tail, piece) := firstPiece first rest
    piece :: pieces (rest.drop tail.length)
termination_by bytes => bytes.length
decreasing_by simp only [List.length_drop, List.length_cons]; omega

/-- The character that stands for a broken piece. -/
def replacement : Char := '\uFFFD'

/-- The text of the bytes, with a replacement character for each
broken piece. -/
def decodeLossy (bytes : List UInt8) : List Char :=
  (pieces bytes).map fun
    | .character c _ => c
    | .broken _ => replacement

/-- The characters of whole pieces, or the number of bytes before a broken one
when `consumed` came before the pieces. -/
def characters (consumed : Nat) : List Piece → Except Nat (List Char)
  | [] => .ok []
  | .character c size :: rest =>
    (characters (consumed + size) rest).map (c :: ·)
  | .broken _ :: _ => .error consumed

/-- The text of the bytes, or the index of the first byte that belongs
to none. -/
def decode (bytes : List UInt8) : Except Nat (List Char) :=
  characters 0 (pieces bytes)

end BenchReport.Utf8
