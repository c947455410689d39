import DomainColoring.Raster

/-!
# PNG files

A raster becomes a PNG file of three 8-bit channels. The rows are neither filtered nor
compressed: they stand in the file as they are, in stored blocks.
-/

namespace DomainColoring.Png

/-- A word in four bytes, the most significant first. -/
def bigEndian (word : UInt32) : ByteArray :=
  ⟨#[(word >>> 24).toUInt8, (word >>> 16).toUInt8, (word >>> 8).toUInt8, word.toUInt8]⟩

/-- A number below `2 ^ 16` in two bytes, the less significant first. -/
def littleEndian (number : UInt16) : ByteArray :=
  ⟨#[number.toUInt8, (number >>> 8).toUInt8]⟩

/-- The remainder after one more bit, by the polynomial of CRC-32 with its bits reversed. -/
def crcBit (remainder : UInt32) : UInt32 :=
  let rest := remainder >>> 1
  if remainder &&& 1 = 1 then rest ^^^ 0xedb88320 else rest

/-- The remainder after one more byte. -/
def crcByte (remainder : UInt32) (byte : UInt8) : UInt32 :=
  (List.range 8).foldl (fun r _ => crcBit r) (remainder ^^^ byte.toUInt32)

/-- The CRC-32 of bytes. -/
def crc32 (bytes : ByteArray) : UInt32 :=
  bytes.data.foldl crcByte 0xffffffff ^^^ 0xffffffff

/-- The greatest prime below `2 ^ 16`. -/
def adlerModulus : UInt32 := 65521

/-- The Adler-32 checksum of bytes: their sum, and the sum of all sums on the way. -/
def adler32 (bytes : ByteArray) : UInt32 :=
  let (sum, sums) := bytes.data.foldl
    (fun (sum, sums) byte =>
      let sum := (sum + byte.toUInt32) % adlerModulus
      (sum, (sums + sum) % adlerModulus))
    ((1, 0) : UInt32 × UInt32)
  (sums <<< 16) ||| sum

/-- The greatest size of a stored block. -/
def blockSize : Nat := 65535

/-- Bytes in stored blocks, of which only the last is marked as final. -/
def storedBlocks (bytes : ByteArray) : ByteArray :=
  let count := (bytes.size - 1) / blockSize + 1
  (List.range count).foldl
    (fun written k =>
      let block := bytes.extract (k * blockSize) ((k + 1) * blockSize)
      let size := UInt16.ofNat block.size
      (written.push (if k + 1 = count then 1 else 0)) ++ littleEndian size
        ++ littleEndian (~~~size) ++ block)
    .empty

/-- A stream of stored blocks with its two leading bytes and its checksum. -/
def stream (bytes : ByteArray) : ByteArray :=
  ⟨#[0x78, 0x01]⟩ ++ storedBlocks bytes ++ bigEndian (adler32 bytes)

/-- A chunk of a file: size, name, content, and the checksum of name and content. -/
def chunk (name : String) (content : ByteArray) : ByteArray :=
  let named := name.toUTF8 ++ content
  bigEndian (UInt32.ofNat content.size) ++ named ++ bigEndian (crc32 named)

/-- The rows of a raster, each behind a byte that says it is not filtered. -/
def rows (r : Raster) : ByteArray :=
  let width := r.width.toNat
  (List.range r.height.toNat).foldl
    (fun written y =>
      (r.pixels.extract (y * width) ((y + 1) * width)).foldl
        (fun written c => ((written.push c.r).push c.g).push c.b) (written.push 0))
    .empty

/-- The PNG file of a raster. -/
def encode (r : Raster) : ByteArray :=
  let signature : ByteArray := ⟨#[0x89, 0x50, 0x4e, 0x47, 0x0d, 0x0a, 0x1a, 0x0a]⟩
  let header := bigEndian r.width.toUInt32 ++ bigEndian r.height.toUInt32 ++ ⟨#[8, 2, 0, 0, 0]⟩
  signature ++ chunk "IHDR" header ++ chunk "IDAT" (stream (rows r)) ++ chunk "IEND" .empty

end DomainColoring.Png
