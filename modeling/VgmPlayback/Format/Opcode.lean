/-!
# Opcodes

The first byte of a command tells what it is and how many operand bytes follow.  `Opcode.ofByte` classifies
all 256 bytes; the ones that no command begins with are `unknown`.
-/

namespace VgmPlayback

inductive Opcode where
  /-- `54 aa dd`: a write to the YM2151. -/
  | ym2151Write
  /-- `61 nn nn`: wait a number of samples. -/
  | waitSamples
  /-- `62`: wait one frame of 60 Hz video. -/
  | waitNtscFrame
  /-- `63`: wait one frame of 50 Hz video. -/
  | waitPalFrame
  /-- `66`: the end of the commands. -/
  | endOfData
  /-- `67 mm tt ss ss ss ss`: a block of data, with a marker, a type and a size. -/
  | dataBlock
  /-- `70` to `7F`: wait 1 to 16 samples. -/
  | waitShort (samples : UInt8)
  /-- `80` to `8F`: a write to the DAC of the YM2612, then wait 0 to 15 samples. -/
  | dacWait (samples : UInt8)
  /-- `B0` to `BF`: a write with two operands. -/
  | secondaryWrite (byte : UInt8)
  /-- `C0` to `C3`: a write with three operands. -/
  | segaPcmWrite (byte : UInt8)
  /-- Any other command with a known number of operands. -/
  | foreignWrite (byte operands : UInt8)
  | unknown (byte : UInt8)
deriving DecidableEq, Repr

namespace Opcode

/-- The number of operands of the commands for other chips. -/
def foreignOperands? (byte : UInt8) : Option UInt8 :=
  let n := byte.toNat
  if (0x30 ≤ n ∧ n ≤ 0x3F) ∨ n = 0x4F ∨ n = 0x50 ∨ n = 0x94 then some 1
  else if (0x40 ≤ n ∧ n ≤ 0x5F) ∨ (0xA0 ≤ n ∧ n ≤ 0xAF) then some 2
  else if 0xC4 ≤ n ∧ n ≤ 0xDF then some 3
  else if 0xE0 ≤ n ∨ n = 0x90 ∨ n = 0x91 ∨ n = 0x95 then some 4
  else if n = 0x92 then some 5
  else if n = 0x93 then some 10
  else if n = 0x68 then some 11
  else none

def ofByte (byte : UInt8) : Opcode :=
  let n := byte.toNat
  if n = 0x54 then ym2151Write
  else if n = 0x61 then waitSamples
  else if n = 0x62 then waitNtscFrame
  else if n = 0x63 then waitPalFrame
  else if n = 0x66 then endOfData
  else if n = 0x67 then dataBlock
  else if n / 0x10 = 0x7 then waitShort (UInt8.ofNat (n % 0x10 + 1))
  else if n / 0x10 = 0x8 then dacWait (UInt8.ofNat (n % 0x10))
  else if n / 0x10 = 0xB then secondaryWrite byte
  else if n / 4 = 0x30 then segaPcmWrite byte
  else match foreignOperands? byte with
    | some operands => foreignWrite byte operands
    | none => unknown byte

/-- The number of operands that are passed over unread, for the commands that do nothing else. -/
def skippedOperands? : Opcode → Option UInt8
  | secondaryWrite _ => some 2
  | segaPcmWrite _ => some 3
  | foreignWrite _ operands => some operands
  | _ => none

end Opcode

/-- The samples of one frame of 60 Hz video. -/
def ntscFrame : UInt16 := 735

/-- The samples of one frame of 50 Hz video. -/
def palFrame : UInt16 := 882

end VgmPlayback
