import VgmPlayback.Storage.Source
import VgmPlayback.Text.Blank

/-!
# Track libraries

A library is a row of tracks.  A track may have a name, and each opening of it gives a fresh source or
fails; the openings are counted, so that a track may behave differently from one to the next.
-/

namespace VgmPlayback

structure Track where
  name? : Option String
  /-- What the `k`-th opening gives, counted from 1. -/
  contents : Nat → Except IoError Source
  /-- The number of openings so far. -/
  openings : Nat := 0

/-- A track whose bytes are in memory. -/
def Track.ofBytes (name : String) (bytes : List UInt8) : Track :=
  let source := Source.ofBytes bytes
  { name? := some name, contents := fun _ => .ok source }

structure Library where
  tracks : Array Track := #[]

namespace Library

def size (l : Library) : Nat := l.tracks.size

def push (l : Library) (t : Track) : Library := { tracks := l.tracks.push t }

/-- The names of the tracks in order. -/
def names (l : Library) : List (Option String) := l.tracks.toList.map Track.name?

/-- The name of a track, if there is such a track and it has one. -/
def name? (l : Library) (index : Nat) : Option String := l.tracks[index]?.bind Track.name?

/-- The first place whose name equals the request once both are trimmed. -/
def positionIn? (names : List (Option String)) (request : String) : Option Nat :=
  let request := Text.trim request
  names.findIdx? fun name? => name?.any fun name => Text.trim name == request

def position? (l : Library) (request : String) : Option Nat := positionIn? l.names request

/-- Opens a track; the opening counts whether or not it succeeds. -/
def openTrack (l : Library) (index : Nat) : Except IoError Source × Library :=
  match l.tracks[index]? with
  | none => (.error (.noTrack index), l)
  | some t =>
    let t := { t with openings := t.openings + 1 }
    (t.contents t.openings, { tracks := l.tracks.setIfInBounds index t })

@[simp] theorem length_names (l : Library) : l.names.length = l.size := by
  simp [names, size]

@[simp] theorem names_openTrack (l : Library) (index : Nat) : (l.openTrack index).2.names = l.names := by
  unfold openTrack
  split
  · rfl
  · rename_i t h
    simp only [names, Array.toList_setIfInBounds, List.map_set]
    apply List.ext_getElem?
    intro i
    by_cases hi : index = i
    · subst hi
      have ht : l.tracks.toList[index]? = some t := by simpa using h
      have hlt := (List.getElem?_eq_some_iff.1 ht).1
      rw [List.getElem?_set_self (by simpa using hlt)]
      simp [h]
    · rw [List.getElem?_set_ne hi]

end Library

end VgmPlayback
