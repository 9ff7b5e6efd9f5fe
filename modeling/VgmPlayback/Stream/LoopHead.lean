import VgmPlayback.Stream.CommandStream

/-!
# Loop heads

A `LoopHead` is a copy of the first bytes after the loop point.  When the commands end, it puts these bytes
into the command stream at once and moves the source past them, so a restart need not wait for storage.
-/

namespace VgmPlayback

structure LoopHead where
  /-- The most bytes copied. -/
  capacity : Nat
  copied : Fifo := ∅
  /-- Where in the source the copy was taken. -/
  offset : Nat := 0

namespace LoopHead

/-- The usual room. -/
def defaultCapacity : Nat := 512

/-- Room for `capacity` bytes, none of them copied. -/
def empty (capacity : Nat) : LoopHead where
  capacity

/-- The number of bytes copied. -/
def length (c : LoopHead) : Nat := c.copied.size

/-- The copied bytes. -/
def bytes (c : LoopHead) : List UInt8 := c.copied.toList

/-- Bytes in place of the copied ones, as many as there were: the first of `arrived`, then zeros. -/
def overwrite (c : LoopHead) (arrived : List UInt8) : Fifo :=
  .ofList (arrived.take c.length ++ List.replicate (c.length - arrived.length) 0)

/-- Copies the bytes at `offset` and puts the source's cursor back.  A failure leaves the old length, over
the bytes that had arrived and zeros after them. -/
def snapshot (c : LoopHead) (offset : Nat) (s : Source) : Except IoError Unit × LoopHead × Source :=
  let copy : Source.Transfer :=
    match Source.seek offset s with
    | .ok _ s => s.readFully c.capacity
    | .error e s => ⟨[], some e, s⟩
  match Source.seek s.pos copy.source with
  | .error e s => (.error e, { c with copied := c.overwrite copy.bytes, offset }, s)
  | .ok _ s =>
    match copy.error? with
    | some e => (.error e, { c with copied := c.overwrite copy.bytes, offset }, s)
    | none => (.ok (), { c with copied := .ofList copy.bytes, offset }, s)

/-- Replaces what the stream has read ahead by the copied bytes, as many as it has room for, and moves the
source past them.  The counter of the loop starts one short of their number. -/
def inject (c : LoopHead) : EStateM IoError CommandStream Unit := fun s =>
  let pushed := c.copied.take s.capacity
  let s := { s.clear with pending := pushed }
  match Source.seek (c.offset + pushed.size) s.source with
  | .ok _ source => .ok () { s with source, cmdPos := UInt32.ofNat (pushed.size - 1) }
  | .error e source => .error e { s with source }

end LoopHead

end VgmPlayback
