import VgmPlayback.Console.ChipMonitor
import VgmPlayback.Console.Failure
import VgmPlayback.Console.UserCommand
import VgmPlayback.Files.Folder
import VgmPlayback.Text.Width

/-!
# The jukebox

A `Jukebox` is a player with a user in front of it.  Each turn carries out one command, if the user has
given one, then lets the player go on, and shows the track whenever it has changed.  Between the turns the
clock ticks.
-/

namespace VgmPlayback

structure JukeboxOptions where
  config : PlayerConfig := {}
  /-- The track to start with. -/
  request? : Option String := none
  /-- Show every register write. -/
  echo : Bool := false
deriving DecidableEq, Repr

structure Jukebox where
  player : Player
  monitor : ChipMonitor := {}
  echo : Bool := false
  /-- The place of the track that was shown last. -/
  shown : Nat

namespace Jukebox

/-- The block of lines about the current track. -/
def nowPlaying (p : Player) : List String :=
  match p.metadata? with
  | none => []
  | some g =>
    let index := p.index
    let name := p.name?.getD ""
    s!"[{index}] {name}" ::
      [("Track", g.trackName), ("Game", g.gameName), ("System", g.systemName), ("Author", g.author),
        ("Released", g.releaseDate)].map fun (label, text) => "  " ++ Text.padToWidth 9 label ++ " " ++ text

/-- Why a jukebox stops. -/
inductive Ending where
  | quit
  | failed (f : Failure)
deriving DecidableEq, Repr

/-- What a turn did: the lines for the user, the reports, and the ending if it was the last turn. -/
structure Turn where
  jukebox : Jukebox
  lines : List String := []
  reports : List String := []
  ending? : Option Ending := none

/-- Switches tracks.  A request that is not met is only reported. -/
def select (choice : Choice) : EStateM Failure Player Unit := fun p =>
  match Player.selectTrack choice p with
  | .ok _ p => .ok () p
  | .error (.notFound name) p => .ok () (p.report [.requestMissed name])
  | .error e p => .error (.playback e) p

/-- The notices that concern the user. -/
def noteworthy (n : Notice) : Bool := n.level = .info ∨ n.level = .warn

/-- Ends a turn: what the player has sent out goes to the monitor, the user and the reports. -/
def settle (j : Jukebox) (p : Player) (lines : List String) (ending? : Option Ending) : Turn :=
  let (monitor, heard) := j.monitor.hearAll p.chip.toList
  let writes := p.chip.toList.filterMap fun
    | .write w => some w.describe
    | _ => none
  let notices := (p.notices.toList ++ heard).filter noteworthy
  { jukebox := { j with player := { p with chip := #[], observed := #[], notices := #[] }, monitor }
    lines := (if j.echo then writes else []) ++ lines
    reports := notices.map Notice.line ++ p.observed.toList.map fun e => "WARN " ++ e.message
    ending? }

/-- Carries out a command: the lines for the user, and the ending if there is one. -/
def obey (p : Player) : UserCommand → Player × List String × Option Ending
  | .quit => (p, [], some .quit)
  | .metadata => (p, nowPlaying p, none)
  | .mode mode => (p.setMode mode, [], none)
  | .select choice =>
    match select choice p with
    | .ok _ p => (p, [], none)
    | .error f p => (p, [], some (.failed f))

/-- One turn, with a command or without. -/
def turn (j : Jukebox) (command? : Option UserCommand) : Turn :=
  let (p, lines, ending?) := match command? with
    | none => (j.player, [], none)
    | some command => obey j.player command
  match ending? with
  | some ending => j.settle p lines (some ending)
  | none =>
    match Player.poll p with
    | .error e p => j.settle p lines (some (.failed (.playback e)))
    | .ok _ p =>
      if p.index = j.shown then j.settle p lines none
      else { j with shown := p.index }.settle p (lines ++ nowPlaying p) none

/-- Adds to the random words. -/
def supply (j : Jukebox) (words : RandomWords) : Jukebox :=
  { j with player := { j.player with selector :=
    { j.player.selector with words := j.player.selector.words ++ words } } }

/-- Lets `n` samples pass. -/
def tick (j : Jukebox) (n : Nat) : Jukebox := { j with player := (j.player.tickTimes n).2 }

/-- A jukebox over the folder at `path`, given what stands there, with its first track shown. -/
def start (path : String) (found : Except IoError FileTree) (options : JukeboxOptions) (words : RandomWords) :
    Except Failure Turn :=
  match Folder.read path found with
  | .error e => .error (.file e)
  | .ok names =>
    let entries := match found with
      | .ok folder => folder.entries
      | .error _ => []
    match Player.start (Folder.library names entries) options.config words with
    | .error e _ => .error (.noPlayableTrack path e)
    | .ok _ p =>
      let p := p.observeUnknown
      match (match options.request? with
        | none => .ok () p
        | some name => select (.request name) p : EStateM.Result Failure Player Unit) with
      | .error f _ => .error f
      | .ok _ p =>
        let j : Jukebox := { player := p, echo := options.echo, shown := p.index }
        .ok (j.settle p (nowPlaying p) none)

/-- The lines for the user while a row of commands is carried out, one each turn, and the failure that broke
it off. -/
def script (j : Jukebox) : List UserCommand → List String × Option Failure
  | [] => ([], none)
  | command :: commands =>
    let t := j.turn (some command)
    match t.ending? with
    | some .quit => (t.lines, none)
    | some (.failed f) => (t.lines, some f)
    | none =>
      let (later, failure?) := t.jukebox.script commands
      (t.lines ++ later, failure?)

end Jukebox

end VgmPlayback
