import VgmPlayback.Format.Opcode
import VgmPlayback.LittleEndian

/-!
# Commands

A command as the interpreter acts on it: the opcode together with the operands that matter.  Operands that are
passed over, and the contents of a data block, are known by their number only.
-/

namespace VgmPlayback

/-- A write to a register of the YM2151. -/
structure RegisterWrite where
  address : UInt8
  data : UInt8
deriving DecidableEq, Repr

inductive Command where
  /-- Write `data` to a register of the YM2151. -/
  | write (address data : UInt8)
  /-- Let a number of samples pass. -/
  | wait (samples : UInt16)
  /-- A command for another chip, with the number of its operands. -/
  | skip (operands : UInt8)
  /-- A data block with its type and size. -/
  | block (kind : UInt8) (size : UInt32)
  | endOfData
  /-- A byte with which no command begins. -/
  | unknown (byte : UInt8)
deriving DecidableEq, Repr

namespace Command

/-- The samples that pass. -/
def samples : Command → UInt16
  | wait samples => samples
  | _ => 0

/-- What goes to the chip. -/
def writes : Command → List RegisterWrite
  | write address data => [{ address, data }]
  | _ => []

end Command

end VgmPlayback
