import VgmPlayback.LittleEndian
import VgmPlayback.Storage.Error
import VgmPlayback.Text.Numeral

/-!
# Format errors

What can be wrong with a track file, from its header to the end of its command stream.
-/

namespace VgmPlayback

inductive FormatError where
  /-- The command stream ends where more bytes are expected. -/
  | unexpectedEof
  /-- The file has fewer bytes than the shortest header. -/
  | headerTooShort (needed available : Nat)
  /-- The file does not begin with the identifier of the format; the word is what stands there. -/
  | invalidIdent (ident : UInt32)
  /-- The data start lies beyond what is there. -/
  | dataOffsetOutOfRange (offset available : Nat)
  | io (cause : IoError)
deriving DecidableEq, Repr

namespace FormatError

def message : FormatError → String
  | unexpectedEof => "unexpected end of input"
  | headerTooShort needed available => s!"header too short: needed {needed} bytes, available {available}"
  | invalidIdent ident =>
    "invalid ident: [" ++ ", ".intercalate ((LittleEndian.bytes32 ident).map fun b => toString b.toNat) ++ "]"
  | dataOffsetOutOfRange offset available =>
    let position := Text.hex offset
    s!"offset out of range at data_offset: 0x{position} (available {available})"
  | io cause =>
    let text := cause.message
    s!"i/o error: {text}"

/-- The messages of the error and of what caused it. -/
def chain (e : FormatError) : List String :=
  match e with
  | io cause => [e.message, cause.message]
  | _ => [e.message]

end FormatError

end VgmPlayback
