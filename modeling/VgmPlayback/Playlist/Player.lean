import VgmPlayback.Playback.Playthrough
import VgmPlayback.Playlist.Selector

/-!
# The player

A `Player` plays a library: it owns the selector, the track being played, and the sample clock.  `poll` is
one turn of the main loop.  It reads one byte ahead and, once the wait has run out, executes the next
command; a track that breaks off is left for the next one, and a track that has looped enough is left as the
play mode says.  Loading skips tracks that fail, each track once.

What goes out of the player is kept in order: the events for the chip, the calls of the observer of unknown
opcodes, and the notices.
-/

namespace VgmPlayback

/-- What the chip is told. -/
inductive ChipEvent where
  | write (w : RegisterWrite)
  /-- The rate of the chip's clock in Hz. -/
  | clock (hz : UInt32)
  | reset
deriving DecidableEq, Repr

structure PlayerConfig where
  /-- The most bytes that a command stream reads ahead. -/
  bufferCapacity : Nat := CommandStream.defaultCapacity
  /-- The most bytes copied at the loop point. -/
  loopHeadLength : Nat := LoopHead.defaultCapacity
  /-- The loops after which a track is left. -/
  maxLoops : UInt32 := 3
  mode : PlayMode := default
  /-- Ticks per second. -/
  sampleRate : UInt32 := 44100
deriving DecidableEq, Repr

structure Player where
  library : Library
  selector : Selector
  track? : Option Playthrough := none
  clock : SampleClock := {}
  config : PlayerConfig
  /-- An observer of unknown opcodes is installed. -/
  observing : Bool := false
  chip : Array ChipEvent := #[]
  observed : Array UnknownOpcode := #[]
  notices : Array Notice := #[]

namespace Player

/-- The place of the current track. -/
def index (p : Player) : Nat := p.selector.current

/-- The name of the current track. -/
def name? (p : Player) : Option String := p.library.name? p.index

def loopCount (p : Player) : UInt32 := p.track?.elim 0 Playthrough.loopCount

/-- The metadata of the track being played. -/
def metadata? (p : Player) : Option Gd3 := p.track?.map Playthrough.gd3

/-- Adds to the notices. -/
def report (p : Player) (notices : List Notice) : Player :=
  { p with notices := p.notices ++ notices.toArray }

/-- Adds to the chip's events. -/
def send (p : Player) (events : List ChipEvent) : Player :=
  { p with chip := p.chip ++ events.toArray }

/-! ### Loading -/

/-- Starts a track and reads its metadata: the track, the clock it has informed, and what there is to
report. -/
def prepare (config : PlayerConfig) (source : Source) (clock : SampleClock) :
    Except FormatError Playthrough × SampleClock × List Notice :=
  match Playthrough.start source config.bufferCapacity config.loopHeadLength with
  | .error e => (.error e, clock, [])
  | .ok t =>
    let clock := t.publish clock
    if !t.verify then (.error (.invalidIdent (t.header.get .ident)), clock, [t.startNotice])
    else match t.loadMetadata with
      | (.error e, _, notices) => (.error e, clock, t.startNotice :: notices)
      | (.ok _, t, notices) => (.ok t, clock, t.startNotice :: notices)

/-- Loads the track at `index` in place of the current one.  The clock is held off: it is not ready, its
wait is zero, and it becomes ready when the chip has its rate and is reset. -/
def load (index : Nat) : EStateM PlaybackError Player Unit := fun p =>
  let p := { p with track? := none, clock := { p.clock with wait := 0 } }
  match p.library.openTrack index with
  | (.error e, library) => .error (.io e) { p with library }
  | (.ok source, library) =>
    let p := { p with library }
    match prepare p.config source p.clock with
    | (.error e, clock, notices) => .error (.format e) ({ p with clock }.report notices)
    | (.ok t, clock, notices) =>
      let notices := notices ++ [.nowPlaying index (library.name? index) t.gd3]
      let p := (p.report notices).send [.clock (t.header.get .ym2151Clock), .reset]
      .ok () { p with track? := some t, clock := { clock with ready := true } }

/-- Loads the track at `index`, or else the next one that can be loaded, in `attempts` attempts. -/
def loadPlayable : (attempts : Nat) → (index : Nat) → EStateM PlaybackError Player Nat
  | 0, _, p => .error (.noPlayableTrack p.library.size) p
  | attempts + 1, index, p =>
    match load index p with
    | .ok _ p => .ok index p
    | .error e p =>
      let p := p.report [.trackSkipped (p.library.name? index) e]
      match Selector.select p.library.names .next p.selector with
      | .error e selector => .error e { p with selector }
      | .ok index selector => loadPlayable attempts index { p with selector }

/-- Switches to the chosen track and tells its place.  If the choice cannot be met, the current track goes
on. -/
def selectTrack (choice : Choice) : EStateM PlaybackError Player Nat := fun p =>
  let p := { p with clock := { p.clock with ready := false } }
  match Selector.select p.library.names choice p.selector with
  | .error e selector =>
    let clock := if p.track?.isSome then { p.clock with ready := true } else p.clock
    .error e { p with selector, clock }
  | .ok index selector => loadPlayable p.library.size index { p with selector }

/-- A player over the library, with its first playable track loaded.  After a failure the player is there to
tell what it reported. -/
def start (library : Library) (config : PlayerConfig) (words : RandomWords) :
    EStateM.Result PlaybackError Player Unit :=
  match selectTrack .first { library, config, selector := { words } } with
  | .ok _ p => .ok () p
  | .error e p => .error e p

/-! ### Playing -/

/-- One turn on the current track: reads ahead and, unless a wait is pending, executes a command.  The
answer is `none` when the turn was spent waiting.  A stream that has ended is stepped even while a wait is
pending, because the clock does not move without data. -/
def turn (t : Playthrough) (clock : SampleClock) : Option (Except FormatError UInt16) × Playthrough.Step :=
  match t.refill clock with
  | (.error e, track, clock) => (some (.error e), { result := .error e, track, clock })
  | (.ok _, track, clock) =>
    if 0 < clock.wait ∧ ¬ track.isExhausted then (none, { result := .ok 0, track, clock })
    else
      let s := track.step clock
      (some s.result, s)

/-- Takes over what a turn left behind. -/
def absorb (p : Player) (s : Playthrough.Step) : Player :=
  let p := { p with track? := some s.track, clock := s.clock }
  (p.report s.notices).send (s.writes.map .write)

/-- Hands the latest unknown opcode to the observer. -/
def observe (p : Player) : Player :=
  match p.track? with
  | none => p
  | some t =>
    match t.takeUnknown with
    | (none, _) => p
    | (some e, t) =>
      { p with track? := some t, observed := if p.observing then p.observed.push e else p.observed }

/-- One turn of the main loop. -/
def poll : EStateM PlaybackError Player Unit := fun p =>
  match p.track? with
  | none => .ok () p
  | some t =>
    match turn t p.clock with
    | (none, s) => .ok () (p.absorb s)
    | (some result, s) =>
      let p := p.absorb s
      let (choice?, p) : Option Choice × Player :=
        match result with
        | .ok wait =>
          let p := { p with clock := p.clock.addWait wait }.observe
          (if p.config.maxLoops ≤ p.loopCount then p.config.mode.advance? else none, p)
        | .error e => (some .next, p.report [.playbackStopped e])
      match choice? with
      | none => .ok () p
      | some choice =>
        match selectTrack choice p with
        | .ok _ p => .ok () p
        | .error e p => .error e p

/-- Ticks the clock `n` times and tells how many ticks counted. -/
def tickTimes (n : Nat) (p : Player) : Nat × Player :=
  let (moved, clock) := p.clock.tickTimes n
  (moved, { p with clock })

/-- Lets the wait run out. -/
def tickAll (p : Player) : Player := { p with clock := p.clock.tickAll }

def setMode (p : Player) (mode : PlayMode) : Player := { p with config := { p.config with mode } }

/-- Installs the observer of unknown opcodes. -/
def observeUnknown (p : Player) : Player := { p with observing := true }

end Player

end VgmPlayback
