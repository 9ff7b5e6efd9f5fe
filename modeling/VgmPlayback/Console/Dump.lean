import VgmPlayback.Console.ChipMonitor
import VgmPlayback.Console.Failure

/-!
# Dumps

A `Dump` plays a track without a clock and notes every register write and every unknown opcode with its time
in samples: the waits of the commands before it.  It goes through the track a number of times.  Each time
takes at most one step more than the file has bytes, because every command moves the stream's cursor on, so
the number of steps is bounded beforehand (`stepBound`).
-/

namespace VgmPlayback

namespace Dump

inductive Entry where
  | write (sample : Nat) (w : RegisterWrite)
  | unknown (sample : Nat) (e : UnknownOpcode)
deriving DecidableEq, Repr

def Entry.line : Entry → String
  | write sample w => Text.padRight 12 (toString sample) ++ " " ++ w.describe
  | unknown sample e => Text.padRight 12 (toString sample) ++ " " ++ e.message

end Dump

structure Dump where
  track : Playthrough
  clock : SampleClock := {}
  /-- The sum of the waits so far. -/
  sample : Nat := 0
  entries : Array Dump.Entry := #[]

namespace Dump

/-- Reads ahead and executes one command. -/
def advance : EStateM Failure Dump Unit := fun d =>
  match d.track.refill d.clock with
  | (.error e, track, clock) => .error (.track e) { d with track, clock }
  | (.ok _, track, clock) =>
    let s := track.step clock
    let entries := d.entries ++ (s.writes.map (.write d.sample)).toArray
    match s.result with
    | .error e => .error (.streamEnded d.sample e) { d with track := s.track, clock := s.clock, entries }
    | .ok wait =>
      let sample := d.sample + wait.toNat
      match s.track.takeUnknown with
      | (none, track) => .ok () { track, clock := s.clock, sample, entries }
      | (some e, track) =>
        .ok () { track, clock := s.clock, sample, entries := entries.push (.unknown sample e) }

/-- The number of steps in which a track of `size` bytes is gone through `loops` times. -/
def stepBound (loops : UInt32) (size : Nat) : Nat := loops.toNat * (size + 1)

/-- Goes on until the track has been gone through `loops` times, for `n` steps at most. -/
def run (loops : UInt32) : Nat → EStateM Failure Dump Unit
  | 0, d => .ok () d
  | n + 1, d =>
    if loops ≤ d.track.loopCount then .ok () d
    else match advance d with
      | .error e d => .error e d
      | .ok _ d => run loops n d

/-- The line between the parts of a dump. -/
def rule : String := String.ofList (List.replicate 40 '-')

/-- The lines above the entries. -/
def headings : List String := [Text.padRight 12 "Sample" ++ " Register Write", rule]

def isWrite : Entry → Bool
  | .write .. => true
  | .unknown .. => false

/-- The lines below the entries. -/
def totals (d : Dump) : List String :=
  let writes := (d.entries.toList.filter isWrite).length
  let samples := d.sample
  let unknown := d.track.unknownCount.toNat
  [rule, s!"{writes} writes, {samples} samples, {unknown} unknown opcodes"]

/-- The dump of a file, gone through `loops` times and at least once, and the failure that broke it off. -/
def ofFile (path : String) (bytes : List UInt8) (loops : UInt32) : List String × Option Failure :=
  match Playthrough.start (.ofBytes bytes) CommandStream.defaultCapacity LoopHead.defaultCapacity with
  | .error e => ([], some (.unparsed path e))
  | .ok track =>
    if !track.verify then ([], some (.notVgm path))
    else
      let loops := max loops 1
      match run loops (stepBound loops bytes.length) { track, clock := track.publish {} } with
      | .ok _ d => (headings ++ d.entries.toList.map Entry.line ++ d.totals, none)
      | .error e d => (headings ++ d.entries.toList.map Entry.line, some e)

end Dump

end VgmPlayback
