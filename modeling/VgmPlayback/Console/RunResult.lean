import VgmPlayback.Console.Dump
import VgmPlayback.Console.Invocation
import VgmPlayback.Console.Summary

/-!
# Runs of the program

What a run writes and how it ends, given what the files hold: with exit code 0, with 1 after a failure, and
with 2 if the arguments are not understood.
-/

namespace VgmPlayback

/-- How a run of the program went: its exit code and what it wrote. -/
structure RunResult where
  code : UInt32
  output : String
  errors : String
deriving DecidableEq, Repr

namespace RunResult

/-- The text of some lines. -/
def text (lines : List String) : String := String.join (lines.map (· ++ "\n"))

/-- The result of a run that wrote some lines and then failed or came to its end. -/
def ofLines (lines : List String) : Option Failure → RunResult
  | none => { code := 0, output := text lines, errors := "" }
  | some f => { code := 1, output := text lines, errors := f.report }

/-- The result of a run with arguments that are not understood. -/
def ofUsageError (e : UsageError) : RunResult where
  code := 2
  output := ""
  errors := "error: " ++ e.message ++ "\n"

/-- The result of a run that is asked for the version of the program. -/
def version : RunResult := ofLines ["chipstream 0.1.0"] none

/-- The result of a run that hands the loaded track on to `next`. -/
def withTrack (path : String) (content : Except IoError (List UInt8))
    (next : List UInt8 → List String × Option Failure) : RunResult :=
  match TrackFile.load path content with
  | .error e => ofLines [] (some (.file e))
  | .ok bytes =>
    let (lines, failure?) := next bytes
    ofLines lines failure?

/-- The result of `info`, given what the file holds. -/
def info (path : String) (content : Except IoError (List UInt8)) : RunResult :=
  withTrack path content fun bytes =>
    match Summary.describe path bytes with
    | .ok lines => (lines, none)
    | .error f => ([], some f)

/-- The result of `dump`, given what the file holds. -/
def dump (path : String) (content : Except IoError (List UInt8)) (loops : UInt32) : RunResult :=
  withTrack path content fun bytes => Dump.ofFile path bytes loops

/-- The result of `play` when the commands on the input lines are carried out one after the other. -/
def play (path : String) (found : Except IoError FileTree) (options : JukeboxOptions) (words : RandomWords)
    (input : List String) : RunResult :=
  match Jukebox.start path found options words with
  | .error f => ofLines [] (some f)
  | .ok t =>
    let (lines, failure?) := t.jukebox.script (input.filterMap UserCommand.ofLine?)
    ofLines (t.lines ++ lines) failure?

end RunResult

end VgmPlayback
