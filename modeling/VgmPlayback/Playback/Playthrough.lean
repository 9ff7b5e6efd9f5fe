import VgmPlayback.Format.HeaderCodec
import VgmPlayback.Playback.Notice
import VgmPlayback.Playback.SampleClock
import VgmPlayback.Stream.Fetch
import VgmPlayback.Stream.LoopHead

/-!
# Playing one track

A `Playthrough` is one track being played: its command stream, its header and metadata, the copy of the
bytes at the loop point, and what has been counted so far.  `step` executes one command and returns the
samples to wait; at the end of the commands it goes back to the loop point.  An unknown opcode is noted and
passed over.  The sample clock learns after each successful operation whether the stream has data
(`publish`); an operation that fails leaves it uninformed, and one that fails while going back leaves it not
ready.
-/

namespace VgmPlayback

/-- One more, except that the largest count stays. -/
def countUp (n : UInt32) : UInt32 := if n = 0xFFFFFFFF then n else n + 1

theorem toNat_countUp_of_lt {n m : UInt32} (h : n < m) : (countUp n).toNat = n.toNat + 1 := by
  have hm := m.toNat_lt
  rw [UInt32.lt_iff_toNat_lt] at h
  have hne : n ≠ 0xFFFFFFFF := by
    rintro rfl
    exact absurd h (by simp; omega)
  rw [countUp, if_neg hne, UInt32.toNat_add, UInt32.toNat_one, Nat.mod_eq_of_lt (by omega)]

structure Playthrough where
  stream : CommandStream
  header : Header
  gd3 : Gd3 := {}
  loopHead : LoopHead
  /-- The number of times that the end of the commands was reached. -/
  loopCount : UInt32 := 0
  /-- The latest unknown opcode, until it is taken. -/
  lastUnknown? : Option UnknownOpcode := none
  unknownCount : UInt32 := 0

namespace Playthrough

/-- Reads the header, fills the stream at the data start, and copies the bytes at the loop point, no more of
them than the stream has room for.  The identifier of the file is not looked at. -/
def start (source : Source) (capacity headCapacity : Nat) : Except FormatError Playthrough :=
  match Header.read source with
  | .error e _ => .error e
  | .ok header source =>
    match Source.seek header.dataStart source with
    | .error e _ => .error (.io e)
    | .ok _ source =>
      match CommandStream.fill (.ofSource source capacity) with
      | .error e _ => .error (.io e)
      | .ok _ stream =>
        match (LoopHead.empty (min headCapacity stream.capacity)).snapshot header.loopStart stream.source with
        | (.error e, _, _) => .error (.io e)
        | (.ok _, loopHead, source) => .ok { stream := { stream with source }, header, loopHead }

/-- What a successful start reports. -/
def startNotice (p : Playthrough) : Notice := .loopHeadTaken p.loopHead.length p.loopHead.offset

/-- Tells the clock whether the stream has data. -/
def publish (p : Playthrough) (clock : SampleClock) : SampleClock :=
  { clock with hasData := !p.stream.pending.isEmpty }

/-- The file begins with the identifier of the format. -/
def verify (p : Playthrough) : Bool := p.header.verify

/-- Nothing is pending and the source has ended, so the next step fails. -/
def isExhausted (p : Playthrough) : Bool := p.stream.pending.isEmpty && p.stream.source.remaining == 0

/-- Reads the metadata that the header announces. -/
def loadMetadata (p : Playthrough) : Except FormatError Gd3 × Playthrough × List Notice :=
  let reading := Gd3.read p.header p.stream.source
  let p := { p with stream := { p.stream with source := reading.source } }
  let notices := reading.findings.map .metadata
  match reading.result with
  | .ok gd3 => (.ok gd3, { p with gd3 }, notices)
  | .error e => (.error (.io e), p, notices)

/-- The latest unknown opcode, which is forgotten. -/
def takeUnknown (p : Playthrough) : Option UnknownOpcode × Playthrough :=
  (p.lastUnknown?, { p with lastUnknown? := none })

/-- Reads one byte ahead if there is room and need. -/
def refill (p : Playthrough) (clock : SampleClock) : Except FormatError Bool × Playthrough × SampleClock :=
  match CommandStream.refill p.stream with
  | .ok done stream =>
    let p := { p with stream }
    (.ok done, p, p.publish clock)
  | .error e stream => (.error (.io e), { p with stream }, clock)

/-- What one step did: the samples to wait or the failure, the track and the clock afterwards, and what went
to the chip and to the reports meanwhile. -/
structure Step where
  result : Except FormatError UInt16
  track : Playthrough
  clock : SampleClock
  writes : List RegisterWrite := []
  notices : List Notice := []

/-- A step that succeeded, with its wait. -/
def Step.done (wait : UInt16) (p : Playthrough) (clock : SampleClock)
    (writes : List RegisterWrite) (notices : List Notice) : Step where
  result := .ok wait
  track := p
  clock := p.publish clock
  writes
  notices

/-- Goes back to the loop point, with the clock held off meanwhile. -/
def restart (p : Playthrough) (clock : SampleClock) : Step :=
  let held := { clock with ready := false }
  match p.loopHead.inject p.stream.reset with
  | .ok _ stream =>
    Step.done 0 { p with stream, loopCount := countUp p.loopCount } { held with ready := true } [] []
  | .error e stream => { result := .error (.io e), track := { p with stream }, clock := held }

/-- Passes over `count` bytes of the stream. -/
def passOver (p : Playthrough) (clock : SampleClock) (count : UInt32) (notices : List Notice) : Step :=
  match p.stream.discard count with
  | .ok _ stream => Step.done 0 { p with stream } clock [] notices
  | .error e stream => { result := .error e, track := { p with stream }, clock, notices }

/-- Executes a command that was met when the loop counter stood at `position`. -/
def perform (p : Playthrough) (clock : SampleClock) (position : UInt32) : Command → Step
  | .write address data => Step.done 0 p clock [{ address, data }] []
  | .wait samples => Step.done samples p clock [] []
  | .skip operands => p.passOver clock operands.toUInt32 []
  | .block kind size => p.passOver clock size [.blockSkipped kind size]
  | .endOfData => p.restart clock
  | .unknown opcode =>
    let e := { opcode, position }
    Step.done 0 { p with lastUnknown? := some e, unknownCount := countUp p.unknownCount } clock []
      [.unknownOpcode e]

/-- Executes the next command of the stream. -/
def step (p : Playthrough) (clock : SampleClock) : Step :=
  match p.stream.fetch with
  | .ok command stream => { p with stream }.perform clock p.stream.cmdPos command
  | .error e stream => { result := .error e, track := { p with stream }, clock }

end Playthrough

end VgmPlayback
