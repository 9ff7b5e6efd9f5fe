import VgmPlayback.Format.Command
import VgmPlayback.Stream.CommandStream

/-!
# Fetching commands

`CommandStream.fetch` consumes an opcode and the operands that matter.  What is to be passed over is left in
the stream; the command tells how much that is.
-/

namespace VgmPlayback.CommandStream

/-- The next command of the stream. -/
def fetch : EStateM FormatError CommandStream Command := do
  match Opcode.ofByte (← consume) with
  | .ym2151Write =>
    let address ← consume
    let data ← consume
    return .write address data
  | .waitSamples => return .wait (← consume16)
  | .waitNtscFrame => return .wait ntscFrame
  | .waitPalFrame => return .wait palFrame
  | .waitShort samples | .dacWait samples => return .wait samples.toUInt16
  | .dataBlock =>
    let _marker ← consume
    let kind ← consume
    return .block kind (← consume32)
  | .secondaryWrite _ => return .skip 2
  | .segaPcmWrite _ => return .skip 3
  | .foreignWrite _ operands => return .skip operands
  | .endOfData => return .endOfData
  | .unknown byte => return .unknown byte

end VgmPlayback.CommandStream
