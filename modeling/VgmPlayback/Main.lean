import VgmPlayback.Console.RunResult

/-!
# The program

Reads the files that the arguments name, writes what the library makes of them, and keeps the time while
tracks are played.
-/

namespace VgmPlayback

def usage : List String :=
  ["usage:", "  info FILE", "  dump FILE [--loops N]",
   "  play DIR [--mode loop|shuffle|in-order] [--max-loops N] [--buffer BYTES] [--loop-cache BYTES]",
   "           [--rate HZ] [--request NAME] [--echo]",
   "while playing, one command a line:",
   "  + next, - previous, * random, / shuffle, . loop, > in order, ? metadata, r:NAME request, q quit"]

/-- The failure to read a file. -/
def ofSystemError : IO.Error → IoError
  | .noFileOrDirectory .. => .noSuchFile
  | .inappropriateType .. => .notADirectory
  | .invalidArgument .. => .nameTooLong
  | e => .system (toString e)

/-- What stands at a path.  The directories in a directory are not looked into. -/
def lookUp (path : String) : IO (Except IoError FileTree) := do
  let place := (← IO.currentDir) / path
  try
    if (← place.metadata).type != .dir then return .ok (.file (← IO.FS.readBinFile place).toList)
    let entries ← (← place.readDir).toList.mapM fun entry => do
      if (← entry.path.metadata).type == .file then
        return (entry.fileName, FileTree.file (← IO.FS.readBinFile entry.path).toList)
      else return (entry.fileName, FileTree.directory [])
    return .ok (.directory entries)
  catch e => return .error (ofSystemError e)

/-- The bytes of the file at a path. -/
def readContent (path : String) : IO (Except IoError (List UInt8)) := do
  match ← lookUp path with
  | .ok (.file bytes) => return .ok bytes
  | .ok (.directory _) => return .error .isADirectory
  | .error e => return .error e

/-- Writes the result of a run and tells its exit code. -/
def finish (r : RunResult) : IO UInt32 := do
  IO.print r.output
  IO.eprint r.errors
  return r.code

/-- Fresh random words. -/
def freshWords (n : Nat) : IO RandomWords :=
  (List.range n).mapM fun _ => return UInt64.ofNat (← IO.rand 0 (UInt64.size - 1))

/-- Puts the commands that the user types into the inbox, up to the end of the input or the quit command. -/
partial def collect (inbox : IO.Ref (List UserCommand)) : IO Unit := do
  let line ← (← IO.getStdin).getLine
  if line.isEmpty then return
  match UserCommand.ofLine? line with
  | none => collect inbox
  | some .quit => inbox.modify (· ++ [.quit])
  | some command =>
    inbox.modify (· ++ [command])
    collect inbox

/-- Shows what a turn did. -/
def showTurn (t : Jukebox.Turn) : IO Unit := do
  for line in t.lines do IO.println line
  for report in t.reports do IO.eprintln report

/-- Plays until the user quits or playback fails.  `ticked` of the samples due since the start, in nanoseconds
`began`, have been ticked away or given up; a delay of more than a tenth of a second is not made up for. -/
partial def playOn (inbox : IO.Ref (List UserCommand)) (rate began ticked : Nat) (j : Jukebox) :
    IO UInt32 := do
  let command? ← inbox.modifyGet fun
    | [] => (none, [])
    | command :: rest => (some command, rest)
  let words ← if j.player.selector.words.isEmpty then freshWords 64 else pure []
  let due := ((← IO.monoNanosNow) - began) * rate / 1000000000
  let n := min (due - ticked) j.player.clock.wait.toNat
  let t := ((j.supply words).tick n).turn command?
  showTurn t
  match t.ending? with
  | some .quit => return 0
  | some (.failed f) => finish (RunResult.ofLines [] (some f))
  | none =>
    if 0 < t.jukebox.player.clock.wait then IO.sleep 1
    playOn inbox rate began (if rate / 10 < due - ticked - n then due else ticked + n) t.jukebox

/-- Plays the folder at a path. -/
def playFolder (path : String) (options : JukeboxOptions) : IO UInt32 := do
  match Jukebox.start path (← lookUp path) options (← freshWords 64) with
  | .error f => finish (RunResult.ofLines [] (some f))
  | .ok t =>
    showTurn t
    let inbox ← IO.mkRef []
    let _reader ← IO.asTask (collect inbox)
    playOn inbox (max options.config.sampleRate.toNat 1) (← IO.monoNanosNow) 0 t.jukebox

end VgmPlayback

open VgmPlayback in
def main (args : List String) : IO UInt32 := do
  match Invocation.parse args with
  | .error e => finish (RunResult.ofUsageError e)
  | .ok .help => finish (RunResult.ofLines usage none)
  | .ok .version => finish RunResult.version
  | .ok (.info path) => finish (RunResult.info path (← readContent path))
  | .ok (.dump path loops) => finish (RunResult.dump path (← readContent path) loops)
  | .ok (.play path options) => playFolder path options
