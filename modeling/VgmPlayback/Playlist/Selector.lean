import VgmPlayback.Playlist.Error
import VgmPlayback.Playlist.Library
import VgmPlayback.Playlist.RandomWords

/-!
# Track selection

A `Selector` holds the place of the current track and the random source.  `select` moves it by a `Choice`;
when the choice cannot be met, nothing changes.  A `PlayMode` says which choice is made once a track has
looped enough.
-/

namespace VgmPlayback

/-- How the next track is chosen. -/
inductive Choice where
  | first
  | next
  | previous
  /-- Any other track with the same chance; the current one if it is alone. -/
  | random
  /-- The first track of this name, blanks around it aside. -/
  | request (name : String)
deriving DecidableEq, Repr

/-- What happens once a track has looped enough. -/
inductive PlayMode where
  /-- The track goes on. -/
  | loop
  | shuffle
  | inOrder
deriving DecidableEq, Repr

instance : Inhabited PlayMode := ⟨.shuffle⟩

/-- The choice of the next track, or `none` to stay. -/
def PlayMode.advance? : PlayMode → Option Choice
  | .loop => none
  | .shuffle => some .random
  | .inOrder => some .next

structure Selector where
  current : Nat := 0
  words : RandomWords := []
deriving Repr

namespace Selector

/-- The place that a choice means among `n` tracks with the current one at `i`, and the random words left. -/
def resolve (names : List (Option String)) (n i : Nat) (words : RandomWords) :
    Choice → Except PlaybackError (Nat × RandomWords)
  | .first => .ok (0, words)
  | .next => .ok ((i + 1) % n, words)
  | .previous => .ok ((i + n - 1) % n, words)
  | .random =>
    if n = 1 then .ok (i, words)
    else
      let (j, words) := RandomWords.draw (n - 1) words
      .ok (if i ≤ j then j + 1 else j, words)
  | .request name =>
    match Library.positionIn? names name with
    | some j => .ok (j, words)
    | none => .error (.notFound (Text.trim name))

/-- Moves to the chosen track of a library with these names.  A current place beyond the last track counts
as the last one. -/
def select (names : List (Option String)) (choice : Choice) : EStateM PlaybackError Selector Nat := fun s =>
  let n := names.length
  if n = 0 then .error .noTracks s
  else match resolve names n (min s.current (n - 1)) s.words choice with
    | .ok (current, words) => .ok current { current, words }
    | .error e => .error e s

end Selector

end VgmPlayback
