import BenchReport.Image.Bitmap

/-!
# The image format PNG

A file is a signature and some chunks, each with its length in front and a
checksum after it. The pixels are numbers of palette colours, a row after the
other with a byte in front that leaves it unfiltered. They are wrapped as a
compressed stream whose blocks are stored as they are.
-/

namespace BenchReport.Png

/-- A number in four bytes, the greatest digit first. -/
def bigEndian (n : UInt32) : ByteArray :=
  .mk #[(n >>> 24).toUInt8, (n >>> 16).toUInt8, (n >>> 8).toUInt8, n.toUInt8]

/-- A number in two bytes, the least digit first. -/
def littleEndian (n : UInt16) : ByteArray :=
  .mk #[n.toUInt8, (n >>> 8).toUInt8]

/-- One bit of the division that gives the cyclic redundancy check. -/
def divideBit (rest : UInt32) : UInt32 :=
  if rest &&& 1 = 1 then (rest >>> 1) ^^^ 0xEDB88320 else rest >>> 1

/-- One byte of the division. -/
def divideByte (rest : UInt32) (b : UInt8) : UInt32 :=
  Nat.repeat divideBit 8 (rest ^^^ b.toUInt32)

/-- The cyclic redundancy check of bytes. -/
def cyclicCheck (bytes : ByteArray) : UInt32 :=
  bytes.foldl divideByte 0xFFFFFFFF ^^^ 0xFFFFFFFF

/-- The check by two sums: that of the bytes, and that of the sums on
the way. -/
def sumsCheck (bytes : ByteArray) : UInt32 :=
  let (low, high) := bytes.foldl (fun (low, high) b =>
    let low := (low + b.toUInt32) % 65521
    (low, (high + low) % 65521)) ((1, 0) : UInt32 × UInt32)
  high <<< 16 ||| low

/-- A chunk of a file. -/
def chunk (kind : String) (content : ByteArray) : ByteArray :=
  let body := kind.toUTF8 ++ content
  bigEndian content.size.toUInt32 ++ body ++ bigEndian (cyclicCheck body)

/-- The greatest number of bytes in a stored block. -/
def blockSize : Nat := 65535

/-- A block of a stream, stored as it is. -/
def storedBlock (last : Bool) (bytes : ByteArray) : ByteArray :=
  let size := bytes.size.toUInt16
  .mk #[if last then 1 else 0] ++ littleEndian size ++
    littleEndian (size ^^^ 0xFFFF) ++ bytes

/-- A stream of bytes that are stored as they are. -/
def storedStream (bytes : ByteArray) : ByteArray :=
  let last := bytes.size / blockSize
  let blocks := (List.range (last + 1)).map fun i =>
    storedBlock (i = last) (bytes.extract (i * blockSize) ((i + 1) * blockSize))
  blocks.foldl (· ++ ·) (.mk #[0x78, 0x01]) ++ bigEndian (sumsCheck bytes)

/-- The number of a colour in the palette. -/
def number : Ink → UInt8
  | .white => 0
  | .black => 1
  | .blue => 2

/-- The palette: red, green and blue of each colour. -/
def palette : ByteArray :=
  .mk #[0xFF, 0xFF, 0xFF, 0x00, 0x00, 0x00, 0x00, 0x00, 0xFF]

/-- The bytes of the rows. -/
def rows (image : Bitmap) : ByteArray :=
  (List.range image.height).foldl (fun bytes y =>
    (List.range image.width).foldl (fun (bytes : ByteArray) x =>
      bytes.push (number (image.inks.getD (y * image.width + x) .white)))
        (bytes.push 0)) .empty

/-- The signature at the beginning of a file. -/
def signature : ByteArray :=
  .mk #[0x89, 0x50, 0x4E, 0x47, 0x0D, 0x0A, 0x1A, 0x0A]

/-- The chunk that gives the size: eight bits a pixel, each a number of the
palette, rows from top to bottom. -/
def header (image : Bitmap) : ByteArray :=
  bigEndian image.width.toUInt32 ++ bigEndian image.height.toUInt32 ++
    .mk #[8, 3, 0, 0, 0]

/-- The file of an image. -/
def encode (image : Bitmap) : ByteArray :=
  signature ++ chunk "IHDR" (header image) ++ chunk "PLTE" palette
    ++ chunk "IDAT" (storedStream (rows image)) ++ chunk "IEND" .empty

end BenchReport.Png
