import VgmPlayback.Format.Error
import VgmPlayback.Format.Header
import VgmPlayback.Storage.Source

/-!
# Reading and writing headers

`Header.decode` reads a header from the first bytes of a file and `Header.encode` writes the bytes before
the commands.  Both go by the field table: a field is in the file when it ends before the data start and,
from 0x80 on, when the version is above 1.51; otherwise it reads as zero and is not written.  The data
offset is stored relative to its own place, and so is the loop offset, where zero stands for the data start.
-/

namespace VgmPlayback

open LittleEndian

/-- The length of the shortest header. -/
def minHeaderSize : Nat := 0x40

/-- The length of the field table, all of it. -/
def headerImageSize : Nat := 0xCC

namespace Field

/-- Files of this version have the field, if there is room for it. -/
def inVersion (f : Field) (version : UInt32) : Bool := f.offset < 0x80 || 0x151 < version

/-- The field is part of the header of a file of this version whose data start at `dataStart`.  The fields
up to the data offset always are. -/
def present (f : Field) (version : UInt32) (dataStart : Nat) : Bool :=
  f.offset ≤ Field.dataOffset.offset || (f.offset + 4 ≤ dataStart && f.inVersion version)

end Field

namespace Header

/-- The data start for a stored data offset, or `none` if it does not fit in a word.  Two stored values mean
the end of the shortest header. -/
def absoluteData? (raw : UInt32) : Option UInt32 :=
  if raw = 0 ∨ raw = 0x0C then some 0x40
  else if raw.toNat + Field.dataOffset.offset < UInt32.size then some (raw + 0x34)
  else none

/-- The loop start for a stored loop offset; zero means the data start. -/
def absoluteLoop (raw data : UInt32) : UInt32 :=
  if raw = 0 then data else raw + 0x1C

/-- The stored data offset for a data start. -/
def relativeData (data : UInt32) : UInt32 :=
  if data = 0x40 then 0x0C else data - 0x34

/-- The stored loop offset for a loop start. -/
def relativeLoop (loop data : UInt32) : UInt32 :=
  if loop = data ∨ loop = 0 then 0 else loop - 0x1C

/-! ### Decoding -/

/-- The word stored for a field, zero where the image is too short. -/
def rawWord (image : List UInt8) (f : Field) : UInt32 :=
  (word32At? image f.offset).getD 0

/-- The header whose fields are stored in the image, for a given data start. -/
def ofImage (image : List UInt8) (data : UInt32) : Header := ofFields fun
  | .dataOffset => data
  | .loopOffset => absoluteLoop (rawWord image .loopOffset) data
  | f => if f.present (rawWord image .version) data.toNat then rawWord image f else 0

/-- Reads the header from the first bytes of a file.  The identifier is not looked at. -/
def decode (image : List UInt8) : Except FormatError Header :=
  if image.length < minHeaderSize then .error (.headerTooShort minHeaderSize image.length)
  else
    let raw := rawWord image .dataOffset
    match absoluteData? raw with
    | none => .error (.dataOffsetOutOfRange (raw.toNat + Field.dataOffset.offset) image.length)
    | some data => .ok (ofImage image data)

/-- Reads the header at the start of a source, which must reach the data start. -/
def read : EStateM FormatError Source Header := fun s =>
  match (do Source.seek 0; Source.take headerImageSize : EStateM IoError Source (List UInt8)) s with
  | .error e s => .error (.io e) s
  | .ok image s =>
    match decode image with
    | .error e => .error e s
    | .ok h =>
      if s.size < h.dataStart then .error (.dataOffsetOutOfRange h.dataStart s.size) s
      else .ok h s

/-! ### Encoding -/

/-- The word that the file stores for a field. -/
def storedWord (h : Header) (f : Field) : UInt32 :=
  if f.inVersion (h.get .version) then
    match f with
    | .dataOffset => relativeData (h.get .dataOffset)
    | .loopOffset => relativeLoop (h.get .loopOffset) (h.get .dataOffset)
    | f => h.get f
  else 0

/-- The number of bytes before the commands. -/
def encodedSize (h : Header) : Nat := max h.dataStart minHeaderSize

/-- The bytes before the commands: the words that fit there, then zeros. -/
def encode (h : Header) : List UInt8 :=
  let words := (Field.all.take (h.encodedSize / 4)).flatMap fun f => bytes32 (h.storedWord f)
  words ++ List.replicate (h.encodedSize - words.length) 0

theorem length_flatMap_bytes32 (g : Field → UInt32) (fs : List Field) :
    (fs.flatMap fun f => bytes32 (g f)).length = 4 * fs.length := by
  induction fs with
  | nil => rfl
  | cons f fs ih =>
    rw [List.flatMap_cons, List.length_append, ih, length_bytes32, List.length_cons]
    omega

@[simp] theorem length_encode (h : Header) : h.encode.length = h.encodedSize := by
  simp only [encode, List.length_append, List.length_replicate, length_flatMap_bytes32, List.length_take]
  omega

end Header

end VgmPlayback
