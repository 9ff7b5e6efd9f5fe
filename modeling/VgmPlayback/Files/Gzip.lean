import VgmPlayback.LittleEndian

/-!
# Gzip members with stored blocks

A member is a header of ten bytes with optional fields, a deflate stream, and a trailer with the CRC-32 and
the length of the data.  `gunzip` reads the first member of a file and ignores what follows it.  Stored
blocks are the only kind it unpacks; a block with a Huffman code is reported as such.
-/

namespace VgmPlayback.Gzip

open LittleEndian

/-- Why a file is not a gzip member that can be read. -/
inductive Error where
  /-- The magic bytes, the compression method or a reserved flag is wrong. -/
  | badHeader
  /-- The file name or the comment in the header has more than 65535 bytes. -/
  | fieldTooLong
  /-- The header or the trailer is cut off. -/
  | endOfFile
  /-- The deflate stream is cut off. -/
  | incompleteStream
  /-- A block of the reserved kind, or a stored block whose two lengths disagree. -/
  | badStream
  /-- A block with a Huffman code. -/
  | compressedBlock
  /-- A CRC or the length does not match. -/
  | badChecksum
deriving DecidableEq, Repr

def Error.message : Error → String
  | .badHeader => "invalid gzip header"
  | .fieldTooLong => "gzip header field too long"
  | .endOfFile => "unexpected end of file"
  | .incompleteStream => "incomplete deflate stream"
  | .badStream => "corrupt deflate stream"
  | .compressedBlock => "compressed deflate blocks are not supported"
  | .badChecksum => "corrupt gzip stream does not have a matching checksum"

/-- The file begins with the two bytes of a gzip member. -/
def hasMagic : List UInt8 → Bool
  | 0x1F :: 0x8B :: _ => true
  | _ => false

/-! ### Checksum -/

/-- The CRC register after one more bit. -/
def crcBit (c : UInt32) : UInt32 :=
  if c &&& 1 = 1 then (0xEDB88320 : UInt32) ^^^ (c >>> 1) else c >>> 1

/-- The CRC register after one more byte. -/
def crcByte (c : UInt32) (b : UInt8) : UInt32 :=
  crcBit (crcBit (crcBit (crcBit (crcBit (crcBit (crcBit (crcBit (c ^^^ b.toUInt32))))))))

/-- The CRC-32 of the bytes, with the reflected polynomial 0xEDB88320. -/
def crc32 (bytes : List UInt8) : UInt32 := bytes.foldl crcByte 0xFFFFFFFF ^^^ 0xFFFFFFFF

example : crc32 [0x31, 0x32, 0x33, 0x34, 0x35, 0x36, 0x37, 0x38, 0x39] = 0xCBF43926 := by decide +kernel

/-! ### Header -/

/-- The first `n` bytes and the rest. -/
def take (n : Nat) (bytes : List UInt8) : Except Error (List UInt8 × List UInt8) :=
  if bytes.length < n then .error .endOfFile else .ok (bytes.take n, bytes.drop n)

/-- What follows a text field that a zero byte ends. -/
def skipText (bytes : List UInt8) : Except Error (List UInt8) :=
  if 0xFFFF < (bytes.takeWhile (· ≠ 0)).length then .error .fieldTooLong
  else match bytes.dropWhile (· ≠ 0) with
    | [] => .error .endOfFile
    | _ :: rest => .ok rest

/-- What follows a field of bytes that its length precedes. -/
def skipExtra (bytes : List UInt8) : Except Error (List UInt8) := do
  match ← take 2 bytes with
  | ([n₀, n₁], rest) => return (← take (word16 n₀ n₁).toNat rest).2
  | _ => throw .endOfFile

/-- What follows the header.  The flags announce an extra field (bit 2), a file name (bit 3), a comment (bit
4) and the low half of the CRC-32 of the header up to there (bit 1); the three highest bits are reserved. -/
def skipHeader (bytes : List UInt8) : Except Error (List UInt8) := do
  match ← take 10 bytes with
  | (id₁ :: id₂ :: method :: flags :: _, rest) =>
    if id₁ ≠ 0x1F ∨ id₂ ≠ 0x8B ∨ method ≠ 8 ∨ flags &&& 0xE0 ≠ 0 then throw .badHeader
    let rest ← if flags &&& 0x04 ≠ 0 then skipExtra rest else pure rest
    let rest ← if flags &&& 0x08 ≠ 0 then skipText rest else pure rest
    let rest ← if flags &&& 0x10 ≠ 0 then skipText rest else pure rest
    if flags &&& 0x02 = 0 then return rest
    match ← take 2 rest with
    | ([c₀, c₁], body) =>
      let crc := crc32 (bytes.take (bytes.length - rest.length))
      if (word16 c₀ c₁).toNat = crc.toNat % 0x10000 then return body else throw .badChecksum
    | _ => throw .endOfFile
  | _ => throw .endOfFile

/-! ### Body and trailer -/

/-- The data of all blocks up to the final one, and what follows them; `done` are those before, the latest first.
Each block starts on a byte: bit 0 of the first byte marks the final block, bits 1 and 2 are its kind, the
others are padding. -/
def unpackAfter (done : List (List UInt8)) : List UInt8 → Except Error (List UInt8 × List UInt8)
  | [] => .error .incompleteStream
  | head :: rest =>
    if head &&& 6 = 6 then .error .badStream
    else if head &&& 6 ≠ 0 then .error .compressedBlock
    else match rest with
      | n₀ :: n₁ :: m₀ :: m₁ :: body =>
        let n := (word16 n₀ n₁).toNat
        if n + (word16 m₀ m₁).toNat ≠ 0xFFFF then .error .badStream
        else
          let data := body.take n
          if data.length < n then .error .incompleteStream
          else if head &&& 1 = 1 then .ok ((data :: done).reverse.flatten, body.drop n)
          else unpackAfter (data :: done) (body.drop n)
      | _ => .error .incompleteStream
termination_by bytes => bytes.length
decreasing_by
  simp only [List.length_drop, List.length_cons]
  omega

/-- The data of the blocks up to the final one, and what follows them. -/
def unpack (bytes : List UInt8) : Except Error (List UInt8 × List UInt8) := unpackAfter [] bytes

/-- The data of the first member of the file. -/
def gunzip (bytes : List UInt8) : Except Error (List UInt8) := do
  let (data, rest) ← unpack (← skipHeader bytes)
  let (trailer, _) ← take 8 rest
  if word32At? trailer 0 = some (crc32 data) ∧ word32At? trailer 4 = some (UInt32.ofNat data.length) then
    return data
  else throw .badChecksum

end VgmPlayback.Gzip
