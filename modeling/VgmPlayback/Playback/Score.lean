import VgmPlayback.Format.CommandCodec
import VgmPlayback.Playback.Playthrough

/-!
# Scores

A `Score` is what a track file says, apart from how it is streamed: all its bytes, the place where the
commands start, and the place where they go on after their end.  Following it takes one cursor.  A
playthrough of the file must come to the same commands, whatever it has read ahead and whenever.
-/

namespace VgmPlayback

structure Score where
  image : List UInt8
  dataStart : Nat
  loopStart : Nat
deriving DecidableEq, Repr

namespace Score

/-- The score in a file, if there is a header and the commands start within the file. -/
def ofImage? (image : List UInt8) : Option Score :=
  match Header.decode image with
  | .error _ => none
  | .ok h =>
    if image.length < h.dataStart then none
    else some { image, dataStart := h.dataStart, loopStart := h.loopStart }

/-- A place in a score: the position of the next command, and how often the end was reached. -/
structure Place where
  cursor : Nat
  loops : UInt32 := 0
deriving DecidableEq, Repr

def start (s : Score) : Place where
  cursor := s.dataStart

/-- The command at a place and the place after it, or `none` if the file ends before the command does. -/
def next? (s : Score) (p : Place) : Option (Command × Place) :=
  match Command.decode? (s.image.drop p.cursor) with
  | none => none
  | some (.endOfData, _) => some (.endOfData, { cursor := s.loopStart, loops := countUp p.loops })
  | some (c, n) => some (c, { p with cursor := p.cursor + n })

/-- The commands from a place on, `n` of them if there are as many, and the place after them. -/
def follow (s : Score) : Nat → Place → List Command × Place
  | 0, p => ([], p)
  | n + 1, p =>
    match s.next? p with
    | none => ([], p)
    | some (c, p) =>
      let (commands, p) := s.follow n p
      (c :: commands, p)

end Score

end VgmPlayback
