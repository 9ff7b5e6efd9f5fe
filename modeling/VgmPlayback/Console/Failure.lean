import VgmPlayback.Files.TrackFile
import VgmPlayback.Playlist.Error

/-!
# Failures of the program

Why a run of the program ended, and the text that tells the user: a message and, indented below it, its
causes.
-/

namespace VgmPlayback

inductive Failure where
  | file (e : FileError)
  /-- No track could be started from the file. -/
  | unparsed (path : String) (cause : FormatError)
  /-- The file does not begin with the identifier. -/
  | notVgm (path : String)
  /-- The commands broke off after `sample` samples. -/
  | streamEnded (sample : Nat) (cause : FormatError)
  /-- The track could not be read. -/
  | track (cause : FormatError)
  /-- The player has nothing to start with. -/
  | noPlayableTrack (folder : String) (cause : PlaybackError)
  /-- The player broke off. -/
  | playback (cause : PlaybackError)
deriving DecidableEq, Repr

namespace Failure

/-- The messages of the failure and of what caused it. -/
def chain : Failure → List String
  | file e => e.chain
  | unparsed path cause => s!"failed to parse VGM file: {path}" :: cause.chain
  | notVgm path => [s!"not a VGM file: {path}"]
  | streamEnded sample cause => s!"stream ended at sample {sample}" :: cause.chain
  | track cause => cause.chain
  | noPlayableTrack folder cause => s!"no playable track in {folder}" :: cause.chain
  | playback cause => cause.chain

/-- A text whose first line follows `mark` and whose other lines are moved in as far. -/
def indent (mark text : String) : String :=
  mark ++ ("\n" ++ Text.padRight mark.length "").intercalate (text.splitOn "\n")

/-- The causes, one below the other, numbered if there are several. -/
def causeLines : List String → List String
  | [cause] => [indent "    " cause]
  | causes => causes.zipIdx.map fun (cause, i) => indent (s!"    {i}: ") cause

/-- What the user is told. -/
def report (f : Failure) : String :=
  match f.chain with
  | [] => "Error: \n"
  | [message] => s!"Error: {message}\n"
  | message :: causes =>
    s!"Error: {message}\n\nCaused by:\n" ++ String.join ((causeLines causes).map (· ++ "\n"))

end Failure

end VgmPlayback
