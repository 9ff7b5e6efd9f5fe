import VgmPlayback.Format.Error
import VgmPlayback.Storage.Source
import VgmPlayback.Stream.Fifo

/-!
# Command streams

A `CommandStream` reads the command bytes of a track ahead of their use: a queue of bounded size between the
source and the interpreter, topped up one byte at a time.  Two counters run beside it: `bufferPos` counts
the bytes consumed since the queue was last filled or cleared, `cmdPos` those consumed since the loop start.
Both wrap at 2^32.
-/

namespace VgmPlayback

structure CommandStream where
  source : Source
  pending : Fifo := ∅
  /-- The most bytes that the queue holds. -/
  capacity : Nat
  bufferPos : UInt32 := 0
  cmdPos : UInt32 := 0

namespace CommandStream

/-- The usual capacity. -/
def defaultCapacity : Nat := 8192

/-- A stream with nothing read ahead.  The queue has room for one byte at least. -/
def ofSource (source : Source) (capacity : Nat) : CommandStream where
  source
  capacity := max capacity 1

def isFull (s : CommandStream) : Bool := s.capacity ≤ s.pending.size

/-- The position in the source of the next byte to be consumed, while the queue holds the bytes before the
source's cursor. -/
def cursor (s : CommandStream) : Nat := s.source.pos - s.pending.size

/-- Tops the queue up by one byte at most.  The answer tells that there was nothing to do: the queue is
full, it holds at least as many bytes as are left in the source, or the source has ended. -/
def refill : EStateM IoError CommandStream Bool := fun s =>
  if s.isFull || s.source.remaining ≤ s.pending.size then .ok true s
  else match Source.read s.source with
    | .ok (some b) source => .ok false { s with source, pending := s.pending.push b }
    | .ok none source => .ok true { s with source }
    | .error e source => .error e { s with source }

/-- Refills at most `n` times, until there is nothing to do. -/
def refillUpTo : Nat → EStateM IoError CommandStream Unit
  | 0, s => .ok () s
  | n + 1, s =>
    match refill s with
    | .ok true s => .ok () s
    | .ok false s => refillUpTo n s
    | .error e s => .error e s

/-- Refills until there is nothing to do and starts `bufferPos` again.  Each refill but the last takes up
one free place, so the free places bound their number. -/
def fill : EStateM IoError CommandStream Unit := fun s =>
  match refillUpTo (s.capacity - s.pending.size) s with
  | .ok _ s => .ok () { s with bufferPos := 0 }
  | .error e s => .error e s

/-- The next byte of the stream, read from the source if the queue has run dry. -/
def consume : EStateM FormatError CommandStream UInt8 := fun s =>
  match if s.pending.isEmpty then refill s else .ok true s with
  | .error e s => .error (.io e) s
  | .ok _ s =>
    match s.pending.pop? with
    | none => .error .unexpectedEof s
    | some (b, pending) => .ok b { s with pending, bufferPos := s.bufferPos + 1, cmdPos := s.cmdPos + 1 }

def consume16 : EStateM FormatError CommandStream UInt16 := do
  let b₀ ← consume
  let b₁ ← consume
  return LittleEndian.word16 b₀ b₁

def consume32 : EStateM FormatError CommandStream UInt32 := do
  let b₀ ← consume
  let b₁ ← consume
  let b₂ ← consume
  let b₃ ← consume
  return LittleEndian.word32 b₀ b₁ b₂ b₃

/-- Passes over `count` bytes: first those in the queue, then the rest by moving the source's cursor.  If
the stream is shorter than that, nothing changes. -/
def discard (count : UInt32) : EStateM FormatError CommandStream Unit := fun s =>
  let n := count.toNat
  if s.pending.size + s.source.remaining < n then .error .unexpectedEof s
  else
    let rest := n - s.pending.size
    let kept := { s with pending := s.pending.drop (min n s.pending.size) }
    match if rest = 0 then .ok () s.source else Source.seek (s.source.pos + rest) s.source with
    | .ok _ source =>
      .ok () { kept with source, bufferPos := s.bufferPos + count, cmdPos := s.cmdPos + count }
    | .error e source => .error (.io e) { kept with source }

/-- Drops all pending bytes. -/
def clear (s : CommandStream) : CommandStream := { s with pending := ∅, bufferPos := 0 }

/-- Drops all pending bytes and starts both counters again. -/
def reset (s : CommandStream) : CommandStream := { s.clear with cmdPos := 0 }

/-- One line with the size and the counters of the queue. -/
def describe (s : CommandStream) : String :=
  let len := s.pending.size
  let capacity := s.capacity
  let bufferPos := s.bufferPos.toNat
  let cmdPos := s.cmdPos.toNat
  "CommandBuffer " ++
    s!"\x7b len: {len}, capacity: {capacity}, buffer_pos: {bufferPos}, cmd_pos: {cmdPos} \x7d"

end CommandStream

end VgmPlayback
