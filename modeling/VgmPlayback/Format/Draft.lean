import VgmPlayback.Format.Gd3
import VgmPlayback.Format.HeaderCodec
import VgmPlayback.Format.Opcode

/-!
# Drafting tracks

A `Draft` is a track in the making.  Each `Edit` sets something in it or appends commands to it, and `image`
is the finished file: the header, the commands, the end marker, and the metadata chunk if there is one.  The
header fields that follow from the rest are set there (`finishedHeader`); the commands are not checked.
-/

namespace VgmPlayback

open LittleEndian

inductive Edit where
  /-- Set a header field.  The data offset is the position in the file. -/
  | field (f : Field) (w : UInt32)
  /-- Write `data` to a register of the YM2151. -/
  | write (address data : UInt8)
  | wait (samples : UInt16)
  | waitNtscFrame
  | waitPalFrame
  /-- Wait for 1 to 16 samples; a number outside this range counts as the nearest one in it. -/
  | waitShort (samples : UInt8)
  | block (kind : UInt8) (payload : List UInt8)
  /-- Append bytes as they are.  Waits in them do not count. -/
  | raw (bytes : List UInt8)
  /-- Let the track go on from here after its end. -/
  | markLoop
  | metadata (g : Gd3)
deriving DecidableEq, Repr

namespace Edit

/-- The samples of a short wait. -/
def shortSamples (samples : UInt8) : Nat := min (max samples.toNat 1) 16

/-- The command bytes that an edit appends. -/
def bytes : Edit → List UInt8
  | write address data => [0x54, address, data]
  | wait samples => 0x61 :: bytes16 samples
  | waitNtscFrame => [0x62]
  | waitPalFrame => [0x63]
  | waitShort samples => [UInt8.ofNat (0x6F + shortSamples samples)]
  | block kind payload => [0x67, 0x66, kind] ++ bytes32 (UInt32.ofNat payload.length) ++ payload
  | raw bytes => bytes
  | field .. | markLoop | metadata _ => []

/-- The samples that an edit adds to the length of the track. -/
def samples : Edit → Nat
  | wait samples => samples.toNat
  | waitNtscFrame => ntscFrame.toNat
  | waitPalFrame => palFrame.toNat
  | waitShort samples => shortSamples samples
  | _ => 0

end Edit

structure Draft where
  header : Header := .blank
  commands : Array UInt8 := #[]
  /-- The length of the track. -/
  samples : Nat := 0
  /-- The number of command bytes before the loop point. -/
  loopIndex? : Option Nat := none
  gd3? : Option Gd3 := none
deriving Inhabited

namespace Draft

def apply (d : Draft) : Edit → Draft
  | .field f w => { d with header := d.header.set f w }
  | .markLoop => { d with loopIndex? := some d.commands.size }
  | .metadata g => { d with gd3? := some g }
  | e => { d with commands := d.commands ++ e.bytes.toArray, samples := d.samples + e.samples }

/-- The draft that a row of edits makes. -/
def ofEdits (edits : List Edit) : Draft := edits.foldl apply {}

/-- The bytes of the metadata chunk. -/
def chunk (d : Draft) : List UInt8 := (d.gd3?.map Gd3.encode).getD []

/-- The header of the finished file.  The data do not start before the end of the shortest header, and
without a loop point they are where the track goes on.  The metadata have a position if there is a chunk. -/
def finishedHeader (d : Draft) : Header :=
  let data := max (d.header.get .dataOffset) (UInt32.ofNat minHeaderSize)
  let chunkStart := data.toNat + d.commands.size + 1
  let h := d.header.set .dataOffset data
  let h := h.set .totalSamples (UInt32.ofNat (min d.samples 0xFFFFFFFF))
  let h := h.set .loopOffset (data + UInt32.ofNat (d.loopIndex?.getD 0))
  let h := h.set .gd3Offset (if d.chunk.isEmpty then 0 else UInt32.ofNat (chunkStart - Field.gd3Offset.offset))
  h.set .eofOffset (UInt32.ofNat (chunkStart + d.chunk.length - Field.eofOffset.offset))

/-- The finished file. -/
def image (d : Draft) : List UInt8 :=
  d.finishedHeader.encode ++ d.commands.toList ++ [0x66] ++ d.chunk

@[simp] theorem samples_apply (d : Draft) (e : Edit) : (d.apply e).samples = d.samples + e.samples := by
  cases e <;> rfl

@[simp] theorem toList_commands_apply (d : Draft) (e : Edit) :
    (d.apply e).commands.toList = d.commands.toList ++ e.bytes := by
  cases e <;> simp [apply, Edit.bytes]

end Draft

end VgmPlayback
