import VgmPlayback.Storage.Medium

/-!
# Byte sources

A `Source` is a medium together with the size it announced when it was opened and a cursor of its own, so
that both are known without asking the device.  A read that fails half way leaves the cursor where it was
although the head has moved on; the next `seek` brings the two together again.
-/

namespace VgmPlayback

/-- A track's bytes with a read cursor. -/
structure Source where
  medium : Medium
  size : Nat
  pos : Nat
deriving Repr

namespace Source

/-- The source over an image in memory. -/
def ofBytes (bytes : List UInt8) : Source where
  medium := { data := bytes.toArray }
  size := bytes.length
  pos := 0

/-- Measures the medium and rewinds it. -/
def ofMedium (m : Medium) : Except IoError Source :=
  match { m with head := m.extent }.seek 0 with
  | .ok _ m => .ok { medium := m, size := m.extent, pos := 0 }
  | .error e _ => .error e

/-- The bytes between the cursor and the announced end. -/
def remaining (s : Source) : Nat := s.size - s.pos

/-- Moves the cursor to `pos`; it stays where it was if the device fails. -/
def seek (pos : Nat) : EStateM IoError Source Unit := fun s =>
  match s.medium.seek pos with
  | .ok _ m => .ok () { s with medium := m, pos }
  | .error e m => .error e { s with medium := m }

/-- The next byte, or `none` at the end.  The data may end before the announced size, and a device that
reports the end as an error is believed. -/
def read : EStateM IoError Source (Option UInt8) := fun s =>
  if s.size ≤ s.pos then .ok none s
  else match s.medium.readSettled 1 with
    | .ok [] m => .ok none { s with medium := m }
    | .ok (b :: _) m => .ok (some b) { s with medium := m, pos := s.pos + 1 }
    | .error e m =>
      if e.kind = .unexpectedEof then .ok none { s with medium := m }
      else .error e { s with medium := m }

/-- The bytes that arrived, the failure that cut them off if there was one, and the source afterwards. -/
structure Transfer where
  bytes : List UInt8
  error? : Option IoError
  source : Source

/-- Reads up to `n` bytes, fewer only at the end of the data.  On a failure the bytes that had arrived are
known and the cursor has not moved. -/
def readFully (s : Source) (n : Nat) : Transfer :=
  let t := s.medium.readFully n
  match t.error? with
  | none => ⟨t.bytes, none, { s with medium := t.medium, pos := s.pos + t.bytes.length }⟩
  | some e => ⟨t.bytes, some e, { s with medium := t.medium }⟩

/-- `readFully`, with the failure as an error of the computation. -/
def take (n : Nat) : EStateM IoError Source (List UInt8) := fun s =>
  let t := s.readFully n
  match t.error? with
  | none => .ok t.bytes t.source
  | some e => .error e t.source

end Source

end VgmPlayback
