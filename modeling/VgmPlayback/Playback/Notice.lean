import VgmPlayback.Format.Gd3
import VgmPlayback.Playlist.Error

/-!
# Notices

What playback reports on the side, each with a level and one line of text.
-/

namespace VgmPlayback

/-- An unknown opcode and the value of the loop counter at which it was met.  Playback goes on after it. -/
structure UnknownOpcode where
  opcode : UInt8
  position : UInt32
deriving DecidableEq, Repr

def UnknownOpcode.message (e : UnknownOpcode) : String :=
  let opcode := Text.hexPadded 2 e.opcode.toNat
  let position := e.position.toNat
  s!"unknown opcode 0x{opcode} at command position {position}"

/-- How much attention a notice asks for. -/
inductive Level where
  | warn | info | debug | trace
deriving DecidableEq, Repr

def Level.name : Level → String
  | warn => "WARN"
  | info => "INFO"
  | debug => "DEBUG"
  | trace => "TRACE"

inductive Notice where
  /-- The bytes after the loop point were copied. -/
  | loopHeadTaken (length offset : Nat)
  | blockSkipped (kind : UInt8) (size : UInt32)
  | unknownOpcode (e : UnknownOpcode)
  | metadata (f : Gd3.Finding)
  /-- A track failed to load. -/
  | trackSkipped (name? : Option String) (cause : PlaybackError)
  | nowPlaying (index : Nat) (name? : Option String) (gd3 : Gd3)
  /-- The current track broke off. -/
  | playbackStopped (cause : FormatError)
  /-- A requested track is not in the library. -/
  | requestMissed (name : String)
  | chipReset
  | chipClock (hz : UInt32)
deriving DecidableEq, Repr

namespace Notice

def level : Notice → Level
  | loopHeadTaken .. | blockSkipped .. => .trace
  | unknownOpcode _ | metadata (.truncated _) | chipReset => .debug
  | nowPlaying .. | chipClock _ => .info
  | metadata (.badTag ..) | trackSkipped .. | playbackStopped _ | requestMissed _ => .warn

/-- The name of a track in a notice. -/
def shown (name? : Option String) : String := name?.getD "<unnamed>"

def text : Notice → String
  | loopHeadTaken length offset =>
    let place := Text.hex offset
    s!"loop cache: {length} bytes at 0x{place}"
  | blockSkipped kind size =>
    let type := Text.hexPadded 2 kind.toNat
    let n := size.toNat
    s!"skipping data block type 0x{type}, {n} bytes"
  | unknownOpcode e => e.message
  | metadata (.badTag pos sum) =>
    let place := Text.hex pos
    let found := Text.hex sum
    s!"invalid gd3 tag sum at 0x{place}: 0x{found}"
  | metadata (.truncated slot) => s!"gd3 string table truncated in slot {slot}"
  | trackSkipped name? cause =>
    let name := shown name?
    let text := cause.message
    s!"skipping {name}: {text}"
  | nowPlaying index name? gd3 =>
    let name := shown name?
    s!"playing [{index}] {name}: " ++ gd3.trackName ++ " / " ++ gd3.gameName ++ " (" ++ gd3.author ++ ")"
  | playbackStopped cause =>
    let text := cause.message
    s!"playback stopped: {text}"
  | requestMissed name => s!"track not found: {name}"
  | chipReset => "chip reset"
  | chipClock hz =>
    let n := hz.toNat
    s!"chip clock {n} Hz"

/-- The level and the text on one line. -/
def line (n : Notice) : String := n.level.name ++ " " ++ n.text

end Notice

end VgmPlayback
