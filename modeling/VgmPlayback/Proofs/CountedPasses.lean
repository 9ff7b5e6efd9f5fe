import VgmPlayback.Proofs.Restarts
import VgmPlayback.Proofs.Switching
import VgmPlayback.Proofs.Waits

/-!
# Passes are counted

Unless it goes on for ever, a track is left when it has come to its end as often as the settings say.  That this is
exact is an account kept beside the run: how often the current track has executed the end of its commands
(`Player.passesEnded`).

* (turn) A turn counts a loop exactly if it executes the end of the commands (`Player.loopCount_playOn`).
* (switch) A switch that is not refused leaves a track that has counted none, or no track at all
  (`Player.selectTrack_renews`); the switches that turns ask for are never refused as long as there are tracks.

So the loops counted are the passes of the account, always fewer than allowed, and the turn that makes up their number
leaves the track (`Player.passes_exact`).  Between the operations the library may change, as long as it is not emptied:
without tracks the switch is refused, and the track goes on with all its passes made up
(`Player.not_passes_exact_emptied`).
-/

namespace VgmPlayback

namespace Playthrough

private theorem loopCount_restart (p : Playthrough) (clock : SampleClock) :
    (p.restart clock).track.loopCount =
      if (p.restart clock).result.toBool then countUp p.loopCount else p.loopCount := by
  cases hinject : p.loopHead.inject p.stream.reset with
  | ok _ stream =>
    simp only [restart, hinject]
    rfl
  | error e stream =>
    simp only [restart, hinject]
    rfl

/-- A step counts a loop exactly if it goes back to the loop point. -/
theorem loopCount_step (p : Playthrough) (clock : SampleClock) :
    (p.step clock).track.loopCount =
      if (p.step clock).result.toBool && p.atEnd then countUp p.loopCount else p.loopCount := by
  unfold step atEnd
  cases p.stream.fetch with
  | error e stream => rfl
  | ok c stream =>
    cases c with
    | skip operands =>
      obtain ⟨stream', heq⟩ := track_passOver { p with stream } clock operands.toUInt32 []
      rw [Bool.and_false]
      have hkept := congrArg loopCount heq
      exact hkept
    | block kind size =>
      obtain ⟨stream', heq⟩ := track_passOver { p with stream } clock size [.blockSkipped kind size]
      rw [Bool.and_false]
      have hkept := congrArg loopCount heq
      exact hkept
    | endOfData =>
      rw [Bool.and_true]
      exact loopCount_restart { p with stream } clock
    | _ => rfl

end Playthrough

namespace Player

variable {p p' : Player} {t : Playthrough} {n : Nat}

/-! ### The account -/

/-- The next turn executes the end of the commands. -/
def endsPass (p : Player) : Bool :=
  p.track?.any fun t => (turn t p.clock).1.any Except.toBool && (t.refill p.clock).2.1.atEnd

/-- Reading ahead or the command fails in the next turn. -/
def breaksOff (p : Player) : Bool := p.track?.any fun t => (turn t p.clock).1.any (!·.toBool)

/-- The next poll leaves the current track, whether or not another one comes in its place. -/
def leaves (p : Player) : Bool := p.track?.isSome && !(p.departure (p.apply .poll)).isEmpty

/-- How often the current track has executed the end of its commands, after one more operation; a track that has just
come has not. -/
def tally (p : Player) (n : Nat) (op : Operation) : Nat :=
  if (p.departure (p.apply op)).isEmpty then
    if op = .poll ∧ p.endsPass = true then n + 1 else n
  else 0

/-- What befalls a player: an operation, or a change of its library from outside. -/
inductive Event where
  | operation (op : Operation)
  /-- From now on these are the tracks. -/
  | library (library : Library)

def undergo (p : Player) : Event → Player
  | .operation op => p.apply op
  | .library library => { p with library }

/-- The player after all of these events. -/
def after (p : Player) (events : List Event) : Player := events.foldl undergo p

/-- How often the current track has executed the end of its commands, after all of these events. -/
def passesEnded (p : Player) (n : Nat) : List Event → Nat
  | [] => n
  | .operation op :: events => (p.apply op).passesEnded (p.tally n op) events
  | .library library :: events => { p with library }.passesEnded n events

/-- The play mode that an operation sets. -/
def Operation.mode? : Operation → Option PlayMode
  | .setMode mode => some mode
  | _ => none

/-- The play mode that an event sets. -/
def Event.mode? : Event → Option PlayMode
  | .operation op => op.mode?
  | .library _ => none

/-- The play modes in which a player is that begins with this one. -/
def modes (mode : PlayMode) (events : List Event) : List PlayMode := mode :: events.filterMap Event.mode?

/-! ### Turns -/

private theorem loopCount_turn (t : Playthrough) (clock : SampleClock) :
    (turn t clock).2.track.loopCount =
      if (turn t clock).1.any Except.toBool && (t.refill clock).2.1.atEnd then countUp t.loopCount
      else t.loopCount := by
  unfold turn
  rcases t.refill_cases clock with ⟨done, stream, hrefill, -⟩ | ⟨e, stream, hrefill, -⟩
  · simp only [hrefill]
    split
    · rfl
    · exact Playthrough.loopCount_step { t with stream } _
  · simp only [hrefill]
    rfl

theorem loopCount_playOn (htrack : p.track? = some t) :
    p.playOn.2.2.loopCount = if p.endsPass then countUp p.loopCount else p.loopCount := by
  have hcount : p.loopCount = t.loopCount := by rw [loopCount, htrack]; rfl
  have hends : p.endsPass = ((turn t p.clock).1.any Except.toBool && (t.refill p.clock).2.1.atEnd) := by
    rw [endsPass, htrack]
    rfl
  rw [hcount, hends, ← loopCount_turn]
  simp only [playOn, htrack]
  rcases turn t p.clock with ⟨_ | ⟨e | wait⟩, s⟩
  · rfl
  · rfl
  · obtain ⟨lastUnknown?, observed, hafter⟩ := afterCommand_cases p s wait
    dsimp only
    rw [hafter]
    rfl

/-- A turn breaks off and asks for the next track, waits and asks for none, or executes a command and asks for the
track that the play mode says if there were loops enough. -/
theorem choice_cases (htrack : p.track? = some t) :
    (p.breaksOff = true ∧ p.playOn.2.1 = some .next) ∨
    (p.breaksOff = false ∧ p.endsPass = false ∧ p.playOn.2.1 = none) ∨
    (p.breaksOff = false ∧ p.playOn.2.1 =
      if p.config.maxLoops ≤ p.playOn.2.2.loopCount then p.config.mode.advance? else none) := by
  simp only [breaksOff, endsPass, playOn, htrack, Option.any_some]
  rcases turn t p.clock with ⟨_ | ⟨e | wait⟩, s⟩
  · exact .inr (.inl ⟨rfl, rfl, rfl⟩)
  · exact .inl ⟨rfl, rfl⟩
  · obtain ⟨lastUnknown?, observed, hafter⟩ := afterCommand_cases p s wait
    have hconfig : (p.afterCommand s wait).config = p.config := by rw [hafter]; rfl
    dsimp only
    rw [hconfig]
    exact .inr (.inr ⟨rfl, rfl⟩)

/-- A turn keeps the track. -/
theorem stays_playOn (htrack : p.track? = some t) :
    p.playOn.2.2.track?.isSome = true ∧ p.playOn.2.2.loaded = p.loaded := by
  have hstayed : ∀ {p'}, Stayed p t p' → p'.track?.isSome = true ∧ p'.loaded = p.loaded := by
    intro p' h
    obtain ⟨t', htrack', -⟩ := h.track
    exact ⟨by rw [htrack']; rfl, h.loaded_eq⟩
  rcases playOn_cases htrack with
    ⟨stream, done, hplay, -⟩ | ⟨wait, choice?, p', hplay, -, -, -, h⟩ | ⟨e, p', hplay, -, h⟩
  · rw [hplay]
    exact ⟨rfl, rfl⟩
  · rw [hplay]
    exact hstayed h
  · rw [hplay]
    exact hstayed h

/-! ### Switches -/

/-- `p'` is `p` with another track, which has counted no loops, or with none. -/
structure Renewed (p p' : Player) : Prop where
  loopCount_eq : p'.loopCount = 0
  config_eq : p'.config = p.config
  size_eq : p'.library.size = p.library.size

theorem Renewed.trans {p'' : Player} (h : Renewed p p') (h' : Renewed p' p'') : Renewed p p'' :=
  ⟨h'.loopCount_eq, h'.config_eq.trans h.config_eq, h'.size_eq.trans h.size_eq⟩

theorem renewed_load (index : Nat) (p : Player) : Renewed p (leftBy (load index p)) := by
  cases hload : p.loadable? index with
  | some t =>
    obtain ⟨hunplayed, clock, notices, -, heq⟩ := load_of_loadable?_eq_some hload
    rw [heq]
    exact ⟨hunplayed.loopCount_eq, rfl, Library.size_openTrack _ _⟩
  | none =>
    obtain ⟨e, clock, notices, -, -, heq⟩ := load_of_loadable?_eq_none hload
    rw [heq]
    exact ⟨rfl, rfl, Library.size_openTrack _ _⟩

theorem renewed_loadPlayable {attempts : Nat} (index : Nat) (h : attempts ≠ 0 ∨ p.loopCount = 0) :
    Renewed p (leftBy (loadPlayable attempts index p)) := by
  induction attempts generalizing index p with
  | zero => exact ⟨h.resolve_left (not_not.2 rfl), rfl, rfl⟩
  | succ attempts ih =>
    have hrenewed := renewed_load index p
    unfold loadPlayable
    cases hload : load index p with
    | ok _ p' =>
      rw [hload] at hrenewed
      exact hrenewed
    | error e p' =>
      rw [hload] at hrenewed
      have hleft : ∀ selector, Renewed p { p'.report [.trackSkipped (p'.library.name? index) e] with selector } :=
        fun selector => ⟨hrenewed.loopCount_eq, hrenewed.config_eq, hrenewed.size_eq⟩
      dsimp only
      split
      · exact hleft _
      · exact (hleft _).trans (ih _ (.inr (hleft _).loopCount_eq))

/-- A switch is refused, for want of tracks or of a name, and then keeps the track; or it leaves the track for another
one, which has counted no loops, or for none. -/
theorem selectTrack_renews (choice : Choice) (p : Player) :
    ((p.library.size = 0 ∨ ∃ name, choice = .request name) ∧
      leftBy (selectTrack choice p) = { p with clock := { p.clock with ready := p.track?.isSome } }) ∨
    (p.library.size ≠ 0 ∧ Renewed p (leftBy (selectTrack choice p)) ∧
      p.departure (leftBy (selectTrack choice p)) = [.left]) := by
  rcases selectTrack_attempts choice p with hrefused | ⟨index, words, hlt, hattempts⟩
  · exact .inl hrefused
  · right
    have hsize : p.library.size ≠ 0 := Nat.ne_of_gt (Nat.zero_lt_of_lt hlt)
    rw [hattempts]
    generalize hheld : ({ p with
      selector := { current := index, words }
      clock := { p.clock with ready := false } } : Player) = held
    have hloaded : held.loaded = p.loaded := by rw [← hheld]; rfl
    have hrenewed : Renewed held (leftBy (loadPlayable p.library.size index held)) :=
      renewed_loadPlayable index (.inl hsize)
    refine ⟨hsize, ⟨hrenewed.loopCount_eq, ?_, ?_⟩, ?_⟩
    · rw [hrenewed.config_eq, ← hheld]
    · rw [hrenewed.size_eq, ← hheld]
    · rcases loadPlayable_cases p.library.size index held with
        ⟨i, p', hload, harrived⟩ | ⟨e, p', hload, hstranded | ⟨hzero, -⟩⟩
      · rw [hload]
        exact departure_of_length (by rw [leftBy, harrived.loaded_eq, hloaded]; simp)
      · rw [hload]
        exact departure_of_track?_eq_none hstranded.track?_eq
      · exact absurd hzero hsize

theorem config_selectTrack (choice : Choice) (p : Player) : (leftBy (selectTrack choice p)).config = p.config := by
  rcases selectTrack_renews choice p with ⟨-, heq⟩ | ⟨-, hrenewed, -⟩
  · rw [heq]
  · exact hrenewed.config_eq

/-! ### Settings -/

/-- Operations leave the settings alone, the play mode apart. -/
theorem config_apply (p : Player) (op : Operation) :
    (p.apply op).config = { p.config with mode := op.mode?.getD p.config.mode } := by
  cases op with
  | poll =>
    rw [apply_poll]
    cases p.playOn.2.1 with
    | none => exact (playOn_keeps p).2.2
    | some choice => exact (config_selectTrack choice _).trans (playOn_keeps p).2.2
  | select choice => exact config_selectTrack choice p
  | _ => rfl

/-- Events leave the settings alone, the play mode apart. -/
theorem config_undergo (p : Player) (event : Event) :
    (p.undergo event).config = { p.config with mode := event.mode?.getD p.config.mode } := by
  cases event with
  | operation op => exact config_apply p op
  | library library => rfl

private theorem mem_modes_of_undergo {event : Event} {events : List Event} {mode : PlayMode}
    (h : mode ∈ modes (p.undergo event).config.mode events) : mode ∈ modes p.config.mode (event :: events) := by
  rw [config_undergo] at h
  rw [modes, List.filterMap_cons]
  cases hevent : event.mode? with
  | none =>
    rw [hevent] at h
    exact h
  | some mode' =>
    rw [hevent] at h
    exact List.mem_cons_of_mem _ h

theorem config_after (p : Player) (events : List Event) :
    (p.after events).config.maxLoops = p.config.maxLoops ∧
      (p.after events).config.mode ∈ modes p.config.mode events := by
  induction events generalizing p with
  | nil => exact ⟨rfl, List.mem_cons_self⟩
  | cons event events ih =>
    obtain ⟨hmaxLoops, hmode⟩ := ih (p.undergo event)
    rw [config_undergo] at hmaxLoops
    exact ⟨hmaxLoops, mem_modes_of_undergo hmode⟩

/-! ### Runs -/

/-- The loops that the current track has counted are its passes in the account, and they are fewer than allowed. -/
structure Counted (n : Nat) (p : Player) : Prop where
  loopCount_eq : p.loopCount.toNat = n
  loopCount_lt : p.loopCount < p.config.maxLoops
  size_ne : p.track?.isSome = true → p.library.size ≠ 0

private theorem Counted.maxLoops_pos (h : Counted n p) : 0 < p.config.maxLoops :=
  UInt32.lt_of_le_of_lt UInt32.zero_le h.loopCount_lt

private theorem advance?_ne_none {mode : PlayMode} (h : mode ≠ .loop) : mode.advance? ≠ none := by
  cases mode with
  | loop => exact absurd rfl h
  | shuffle => exact nofun
  | inOrder => exact nofun

private theorem departure_congr {p₁ p₂ : Player} (h : p₁.loaded = p₂.loaded) (p' : Player) :
    p₁.departure p' = p₂.departure p' := by
  rw [departure, departure, h]

private theorem counted_of_track?_eq_none (hpos : 0 < p.config.maxLoops) (h : p.track? = none) : Counted 0 p := by
  have hcount : p.loopCount = 0 := by rw [loopCount, h]; rfl
  refine ⟨by rw [hcount, UInt32.toNat_zero], by rw [hcount]; exact hpos, fun hthere => ?_⟩
  rw [h] at hthere
  cases hthere

private theorem counted_of_renewed (hrenewed : Renewed p p') (hpos : 0 < p.config.maxLoops)
    (hsize : p.library.size ≠ 0) : Counted 0 p' where
  loopCount_eq := by rw [hrenewed.loopCount_eq, UInt32.toNat_zero]
  loopCount_lt := by
    rw [hrenewed.loopCount_eq, hrenewed.config_eq]
    exact hpos
  size_ne := by
    rw [hrenewed.size_eq]
    exact fun _ => hsize

private theorem tally_of_left (op : Operation) (h : p.departure (p.apply op) = [.left]) : p.tally n op = 0 := by
  rw [tally, h]
  rfl

/-- An operation that is no poll and leaves the track alone. -/
private theorem Counted.still (h : Counted n p) {op : Operation} (hop : op ≠ .poll)
    (htrack : (p.apply op).track? = p.track?) (hloaded : (p.apply op).loaded = p.loaded)
    (hlibrary : (p.apply op).library = p.library) : Counted (p.tally n op) (p.apply op) := by
  have hmaxLoops : (p.apply op).config.maxLoops = p.config.maxLoops := by rw [config_apply]
  cases hthere : p.track? with
  | none =>
    rw [hthere] at htrack
    rw [tally_of_left op (departure_of_track?_eq_none htrack)]
    exact counted_of_track?_eq_none (by rw [hmaxLoops]; exact h.maxLoops_pos) htrack
  | some t =>
    have hno : ¬ (op = .poll ∧ p.endsPass = true) := fun hends => hop hends.1
    have htally : p.tally n op = n := by
      rw [tally, departure_of_stay (by rw [htrack, hthere]; rfl) hloaded, List.isEmpty_nil, if_pos rfl, if_neg hno]
    have hcount : (p.apply op).loopCount = p.loopCount := by rw [loopCount, htrack, loopCount]
    rw [htally]
    exact ⟨by rw [hcount, h.loopCount_eq], by rw [hcount, hmaxLoops]; exact h.loopCount_lt,
      by rw [htrack, hlibrary]; exact h.size_ne⟩

/-- What a turn counts. -/
private theorem Counted.toNat_loopCount_playOn (h : Counted n p) (htrack : p.track? = some t) :
    p.playOn.2.2.loopCount.toNat = if p.endsPass = true then n + 1 else n := by
  rw [loopCount_playOn htrack]
  split
  · rw [toNat_countUp_of_lt h.loopCount_lt, h.loopCount_eq]
  · exact h.loopCount_eq

/-- A turn that asks for no other track has left a loop over at least. -/
private theorem Counted.playOn_stays (h : Counted n p) (hmode : p.config.mode ≠ .loop) (htrack : p.track? = some t)
    (hchoice : p.playOn.2.1 = none) :
    Counted (if p.endsPass = true then n + 1 else n) p.playOn.2.2 := by
  obtain ⟨hlibrary, -, hconfig⟩ := playOn_keeps p
  refine ⟨h.toNat_loopCount_playOn htrack, ?_, ?_⟩
  · rw [hconfig]
    rcases choice_cases htrack with ⟨-, hnext⟩ | ⟨-, hends, -⟩ | ⟨-, hcommand⟩
    · rw [hchoice] at hnext
      cases hnext
    · rw [loopCount_playOn htrack, if_neg (by rw [hends]; exact nofun)]
      exact h.loopCount_lt
    · refine UInt32.not_le.1 fun henough => advance?_ne_none hmode ?_
      rw [← hchoice, hcommand, if_pos henough]
  · rw [hlibrary]
    exact fun _ => h.size_ne (by rw [htrack]; rfl)

/-- A turn that asks for another track and does not break off has executed the end of the commands, and has made up
the number of passes. -/
private theorem Counted.last_of_choice (h : Counted n p) (htrack : p.track? = some t) {choice : Choice}
    (hchoice : p.playOn.2.1 = some choice) (hwhole : p.breaksOff = false) :
    p.endsPass = true ∧ n + 1 = p.config.maxLoops.toNat := by
  have hcount := h.toNat_loopCount_playOn htrack
  have hlt := h.loopCount_lt
  rw [UInt32.lt_iff_toNat_lt, h.loopCount_eq] at hlt
  rcases choice_cases htrack with ⟨hbroken, -⟩ | ⟨-, -, hnone⟩ | ⟨-, hcommand⟩
  · rw [hwhole] at hbroken
    cases hbroken
  · rw [hchoice] at hnone
    cases hnone
  · have henough : p.config.maxLoops ≤ p.playOn.2.2.loopCount := by
      by_contra hfew
      rw [hchoice, if_neg hfew] at hcommand
      cases hcommand
    rw [UInt32.le_iff_toNat_le, hcount] at henough
    split at henough
    · rename_i hends
      exact ⟨hends, by omega⟩
    · omega

/-- A poll keeps the account; and if it leaves the track although the turn did not break off, the turn has made up the
number of passes. -/
theorem counted_poll (h : Counted n p) (hmode : p.config.mode ≠ .loop) :
    Counted (p.tally n .poll) (p.apply .poll) ∧
      (p.leaves = true → p.breaksOff = false → p.endsPass = true ∧ n + 1 = p.config.maxLoops.toNat) := by
  cases htrack : p.track? with
  | none =>
    have hstill : p.apply .poll = p := by rw [apply_poll, playOn_of_track?_eq_none htrack]
    constructor
    · rw [tally_of_left .poll (by rw [hstill]; exact departure_of_track?_eq_none htrack), hstill]
      exact counted_of_track?_eq_none h.maxLoops_pos htrack
    · intro hleaves
      rw [leaves, htrack] at hleaves
      cases hleaves
  | some t =>
    obtain ⟨hthere, hloaded⟩ := stays_playOn htrack
    obtain ⟨hlibrary, -, hconfig⟩ := playOn_keeps p
    have hsize : p.library.size ≠ 0 := h.size_ne (by rw [htrack]; rfl)
    cases hchoice : p.playOn.2.1 with
    | none =>
      have hpoll : p.apply .poll = p.playOn.2.2 := by rw [apply_poll, hchoice]
      have hstay : p.departure (p.apply .poll) = [] := by
        rw [hpoll]
        exact departure_of_stay hthere hloaded
      have htally : p.tally n .poll = if p.endsPass = true then n + 1 else n := by
        rw [tally, hstay]
        simp only [List.isEmpty_nil, ↓reduceIte, true_and]
      constructor
      · rw [htally, hpoll]
        exact h.playOn_stays hmode htrack hchoice
      · intro hleaves
        rw [leaves, hstay, List.isEmpty_nil, Bool.not_true, Bool.and_false] at hleaves
        cases hleaves
    | some choice =>
      have hpoll : p.apply .poll = leftBy (selectTrack choice p.playOn.2.2) := by rw [apply_poll, hchoice]
      rcases selectTrack_renews choice p.playOn.2.2 with ⟨hempty | ⟨name, hname⟩, -⟩ | ⟨-, hrenewed, hleft⟩
      · -- there are tracks, and none is asked for by its name
        rw [hlibrary] at hempty
        exact absurd hempty hsize
      · rcases choice_of_playOn hchoice with rfl | rfl <;> cases hname
      · have hdeparture : p.departure (p.apply .poll) = [.left] := by
          rw [hpoll, departure_congr hloaded.symm]
          exact hleft
        refine ⟨?_, fun _ hwhole => h.last_of_choice htrack hchoice hwhole⟩
        rw [tally_of_left .poll hdeparture, hpoll]
        refine counted_of_renewed hrenewed ?_ ?_
        · rw [hconfig]
          exact h.maxLoops_pos
        · rw [hlibrary]
          exact hsize

theorem counted_apply (h : Counted n p) (hmode : p.config.mode ≠ .loop) (op : Operation) :
    Counted (p.tally n op) (p.apply op) := by
  cases op with
  | poll => exact (counted_poll h hmode).1
  | tick => exact h.still nofun rfl rfl rfl
  | select choice =>
    rcases selectTrack_renews choice p with ⟨-, heq⟩ | ⟨hsize, hrenewed, hleft⟩
    · have hkept : p.apply (.select choice) = { p with clock := { p.clock with ready := p.track?.isSome } } := heq
      exact h.still nofun (by rw [hkept]) (by rw [hkept]; rfl) (by rw [hkept])
    · rw [tally_of_left (.select choice) hleft]
      exact counted_of_renewed hrenewed h.maxLoops_pos hsize
  | setMode mode => exact h.still nofun rfl rfl rfl
  | observe => exact h.still nofun rfl rfl rfl

theorem counted_after (h : Counted n p) {events : List Event}
    (hmodes : ∀ mode ∈ modes p.config.mode events, mode ≠ .loop)
    (htracks : ∀ library, .library library ∈ events → library.size ≠ 0) :
    Counted (p.passesEnded n events) (p.after events) := by
  induction events generalizing p n with
  | nil => exact h
  | cons event events ih =>
    have hmode := hmodes p.config.mode List.mem_cons_self
    have hlater : ∀ mode ∈ modes (p.undergo event).config.mode events, mode ≠ .loop :=
      fun mode hmem => hmodes mode (mem_modes_of_undergo hmem)
    have hleft : ∀ library, .library library ∈ events → library.size ≠ 0 :=
      fun library hmem => htracks library (List.mem_cons_of_mem _ hmem)
    cases event with
    | operation op => exact ih (counted_apply h hmode op) hlater hleft
    | library library =>
      -- the track stays, and so does what it has counted
      have hsize : library.size ≠ 0 := htracks library List.mem_cons_self
      have hkept : Counted n { p with library } := ⟨h.loopCount_eq, h.loopCount_lt, fun _ => hsize⟩
      exact ih hkept hlater hleft

/-- In the mode that goes on for ever, only a turn that breaks off leaves the track. -/
theorem breaksOff_of_leaves (hmode : p.config.mode = .loop) (hleaves : p.leaves = true) : p.breaksOff = true := by
  cases htrack : p.track? with
  | none =>
    rw [leaves, htrack] at hleaves
    cases hleaves
  | some t =>
    obtain ⟨hthere, hloaded⟩ := stays_playOn htrack
    have hstays : p.playOn.2.1 ≠ none := by
      intro hchoice
      have hpoll : p.apply .poll = p.playOn.2.2 := by rw [apply_poll, hchoice]
      rw [leaves, hpoll, departure_of_stay hthere hloaded, List.isEmpty_nil, Bool.not_true, Bool.and_false] at hleaves
      cases hleaves
    rcases choice_cases htrack with ⟨hbroken, -⟩ | ⟨-, -, hnone⟩ | ⟨-, hcommand⟩
    · exact hbroken
    · exact absurd hnone hstays
    · rw [hmode] at hcommand
      exact absurd (hcommand.trans (ite_self none)) hstays

theorem counted_of_start (library : Library) {config : PlayerConfig} (words : RandomWords)
    (hpos : 0 < config.maxLoops) : Counted 0 (leftBy (start library config words)) := by
  rw [leftBy_start]
  rcases selectTrack_renews .first { library, config, selector := { words } } with
    ⟨-, heq⟩ | ⟨hsize, hrenewed, -⟩
  · rw [heq]
    exact ⟨rfl, hpos, nofun⟩
  · exact counted_of_renewed hrenewed hpos hsize

/-- Whatever befalls a player that never plays in the mode that goes on for ever, with one pass allowed at least and a
library that is not emptied: the loops counted are always fewer than allowed, and if the next poll leaves the track
although its turn does not break off, this turn executes the end of the commands, and with it the track has executed it
exactly as often as allowed.  In no other mode than that one, a poll leaves the track only if its turn breaks off. -/
theorem passes_exact (library : Library) (config : PlayerConfig) (words : RandomWords) (events : List Event) :
    let started := leftBy (start library config words)
    (1 ≤ config.maxLoops → (∀ mode ∈ modes config.mode events, mode ≠ .loop) →
      (∀ library', .library library' ∈ events → library'.size ≠ 0) →
      (started.after events).loopCount < config.maxLoops ∧
      ((started.after events).leaves = true → (started.after events).breaksOff = false →
        (started.after events).endsPass = true ∧ started.passesEnded 0 events + 1 = config.maxLoops.toNat)) ∧
    ((∀ mode ∈ modes config.mode events, mode = .loop) →
      (started.after events).leaves = true → (started.after events).breaksOff = true) := by
  intro started
  have hconfig : started.config = config := by
    show (leftBy (start library config words)).config = config
    rw [leftBy_start, config_selectTrack]
  obtain ⟨hmaxLoops, hmode⟩ := config_after started events
  rw [hconfig] at hmaxLoops hmode
  constructor
  · intro hpos hmodes htracks
    have hcounted : Counted (started.passesEnded 0 events) (started.after events) :=
      counted_after (counted_of_start library words hpos) (by rw [hconfig]; exact hmodes) htracks
    rw [← hmaxLoops]
    exact ⟨hcounted.loopCount_lt, (counted_poll hcounted (hmodes _ hmode)).2⟩
  · intro hmodes
    exact breaksOff_of_leaves (hmodes _ hmode)

/-- A track that is nothing but its end. -/
private def shortest : Track := .ofBytes "end" ([0x56, 0x67, 0x6D, 0x20] ++ List.replicate 0x3C 0 ++ [0x66])

/-- The same, and a track that breaks off before its end. -/
private def endings : Library where
  tracks := #[shortest, .ofBytes "cut" ([0x56, 0x67, 0x6D, 0x20] ++ List.replicate 0x3C 0)]

/-- A pass, the library shrinks, and another pass. -/
private def shrinking : List Event :=
  [.operation .poll, .library { tracks := #[shortest] }, .operation (.setMode .shuffle), .operation .tick]

private def goingOn : List Event :=
  [.operation .poll, .operation .poll, .operation .poll, .operation (.select .next)]

theorem passes_exact_endings :
    let twice := leftBy (start endings { maxLoops := 2, mode := .inOrder } [])
    let forever := leftBy (start endings { mode := .loop } [])
    ((twice.after shrinking).loopCount < 2 ∧ (twice.after shrinking).leaves = true ∧
      (twice.after shrinking).endsPass = true ∧ twice.passesEnded 0 shrinking + 1 = 2) ∧
    (forever.after goingOn).leaves = true ∧ (forever.after goingOn).breaksOff = true := by
  intro twice forever
  have hleaves : (twice.after shrinking).leaves = true := by decide +kernel
  have hwhole : (twice.after shrinking).breaksOff = false := by decide +kernel
  have hleaves' : (forever.after goingOn).leaves = true := by decide +kernel
  have htracks : ∀ library, .library library ∈ shrinking → library.size ≠ 0 := by
    intro library hmem
    simp only [shrinking, List.mem_cons, List.not_mem_nil, reduceCtorEq, Event.library.injEq, or_false, false_or] at hmem
    rw [hmem]
    exact Nat.one_ne_zero
  obtain ⟨hcount, hends⟩ :=
    (passes_exact endings { maxLoops := 2, mode := .inOrder } [] shrinking).1 (by decide) (by decide) htracks
  have hbroken := (passes_exact endings { mode := .loop } [] goingOn).2 (by decide) hleaves'
  exact ⟨⟨hcount, hleaves, hends hleaves hwhole⟩, hleaves', hbroken⟩

/-- The pass allowed is made up, but there are no tracks to switch to: the poll fails, and the track stays with as many
loops counted as are allowed.  When there are tracks again, it is left after another pass. -/
theorem not_passes_exact_emptied :
    let once := leftBy (start endings { maxLoops := 1, mode := .inOrder } [])
    let emptied : List Event := [.library {}, .operation .poll]
    let restored := emptied ++ [.library endings]
    (∀ mode ∈ modes .inOrder restored, mode ≠ .loop) ∧
    (outcome (once.after [.library {}]).poll matches .error .noTracks) ∧
    (once.after emptied).track?.isSome = true ∧ ¬ (once.after emptied).loopCount < 1 ∧
    (once.after restored).leaves = true ∧ (once.after restored).breaksOff = false ∧
      once.passesEnded 0 restored + 1 ≠ 1 := by
  refine ⟨by decide, ?_, ?_, ?_, ?_, ?_, ?_⟩
  · decide +kernel
  · decide +kernel
  · decide +kernel
  · decide +kernel
  · decide +kernel
  · decide +kernel

end Player

end VgmPlayback
