import VgmPlayback.Format.Error

/-!
# Playback errors

What the player can report: about the library, about a request, or about a track.
-/

namespace VgmPlayback

inductive PlaybackError where
  /-- The library is empty. -/
  | noTracks
  /-- No track has the requested name. -/
  | notFound (name : String)
  /-- Every track failed to load. -/
  | noPlayableTrack (attempts : Nat)
  | format (cause : FormatError)
  | io (cause : IoError)
deriving DecidableEq, Repr

namespace PlaybackError

def message : PlaybackError → String
  | noTracks => "no tracks available"
  | notFound name => s!"track not found: {name}"
  | noPlayableTrack attempts => s!"no playable track after {attempts} attempts"
  | format cause => cause.message
  | io cause =>
    let text := cause.message
    s!"i/o error: {text}"

/-- The messages of the error and of what caused it. -/
def chain : PlaybackError → List String
  | format cause => cause.chain
  | io cause => [(io cause).message, cause.message]
  | e => [e.message]

end PlaybackError

end VgmPlayback
