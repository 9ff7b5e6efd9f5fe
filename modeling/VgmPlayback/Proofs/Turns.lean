import VgmPlayback.Playlist.Player
import VgmPlayback.Proofs.StreamCapacity
import VgmPlayback.Proofs.StreamReading

/-!
# Turns

One turn of the main loop on the current track.  A turn does not touch the wait, and it executes a command only
when there is none (`Player.turn_cases`): the one turn that steps with a wait pending is on a stream that has
ended, and there a step can only fail (`Playthrough.step_of_isExhausted`).

`Player.poll` is a turn and then a switch of tracks, if the turn asks for one (`Player.poll_eq`).
-/

namespace VgmPlayback

namespace Playthrough

variable {p : Playthrough} {clock : SampleClock}

/-- On a stream that has ended a step fails, whatever the source. -/
theorem step_of_isExhausted (h : p.isExhausted = true) (clock : SampleClock) :
    (p.step clock).result = .error .unexpectedEof := by
  simp only [isExhausted, Bool.and_eq_true, beq_iff_eq] at h
  have hfetch : p.stream.fetch = .error .unexpectedEof p.stream := by
    simp only [CommandStream.fetch, bind, EStateM.bind, CommandStream.consume_of_exhausted h.1 h.2]
  simp only [step, hfetch]

/-- What an operation on a track may do to the clock: not to the wait, and not to its being ready if it
succeeds. -/
structure Informs (clock : SampleClock) (t : Playthrough) (clock' : SampleClock) : Prop where
  wait_eq : clock'.wait = clock.wait
  ready_of_ready : clock.ready = true → clock'.ready = true
  hasData_eq : clock'.hasData = !t.stream.pending.isEmpty

theorem refill_cases (p : Playthrough) (clock : SampleClock) :
    (∃ done stream, p.refill clock = (.ok done, { p with stream }, ({ p with stream } : Playthrough).publish clock) ∧
      p.stream.refill = .ok done stream) ∨
    ∃ e stream, p.refill clock = (.error (.io e), { p with stream }, clock) ∧ p.stream.refill = .error e stream := by
  unfold refill
  cases CommandStream.refill p.stream with
  | ok done stream => exact .inl ⟨done, stream, rfl, rfl⟩
  | error e stream => exact .inr ⟨e, stream, rfl, rfl⟩

private theorem informs_publish (p : Playthrough) (clock : SampleClock) : Informs clock p (p.publish clock) :=
  ⟨rfl, id, rfl⟩

/-- Going back moves the stream and counts a loop; the rest of the track stays. -/
theorem track_restart (p : Playthrough) (clock : SampleClock) :
    ∃ stream loopCount, (p.restart clock).track = { p with stream, loopCount } := by
  unfold restart
  cases p.loopHead.inject p.stream.reset <;> exact ⟨_, _, rfl⟩

theorem track_passOver (p : Playthrough) (clock : SampleClock) (count : UInt32) (notices : List Notice) :
    ∃ stream, (p.passOver clock count notices).track = { p with stream } := by
  unfold passOver
  cases p.stream.discard count <;> exact ⟨_, rfl⟩

/-- A step moves the stream and changes what is counted and noted; the rest of the track stays. -/
theorem track_step (p : Playthrough) (clock : SampleClock) : ∃ stream loopCount lastUnknown? unknownCount,
    (p.step clock).track = { p with stream, loopCount, lastUnknown?, unknownCount } := by
  unfold step
  cases p.stream.fetch with
  | error e stream => exact ⟨stream, _, _, _, rfl⟩
  | ok c stream =>
    cases c with
    | skip operands =>
      obtain ⟨stream', heq⟩ := track_passOver { p with stream } clock operands.toUInt32 []
      exact ⟨stream', _, _, _, heq⟩
    | block kind size =>
      obtain ⟨stream', heq⟩ := track_passOver { p with stream } clock size [.blockSkipped kind size]
      exact ⟨stream', _, _, _, heq⟩
    | endOfData =>
      obtain ⟨stream', loopCount, heq⟩ := track_restart { p with stream } clock
      exact ⟨stream', loopCount, _, _, heq⟩
    | _ => exact ⟨stream, _, _, _, rfl⟩

private theorem restart_cases (p : Playthrough) (clock : SampleClock) :
    (∃ w, (p.restart clock).result = .ok w ∧ Informs clock (p.restart clock).track (p.restart clock).clock) ∨
    ∃ e, (p.restart clock).result = .error e ∧ (p.restart clock).clock.wait = clock.wait := by
  unfold restart
  cases p.loopHead.inject p.stream.reset with
  | ok _ stream => exact .inl ⟨0, rfl, rfl, fun _ => rfl, rfl⟩
  | error e stream => exact .inr ⟨.io e, rfl, rfl⟩

private theorem passOver_cases (p : Playthrough) (clock : SampleClock) (count : UInt32) (notices : List Notice) :
    (∃ w, (p.passOver clock count notices).result = .ok w ∧
      Informs clock (p.passOver clock count notices).track (p.passOver clock count notices).clock) ∨
    ∃ e, (p.passOver clock count notices).result = .error e ∧
      (p.passOver clock count notices).clock.wait = clock.wait := by
  unfold passOver
  cases p.stream.discard count with
  | ok _ stream => exact .inl ⟨0, rfl, informs_publish _ _⟩
  | error e stream => exact .inr ⟨e, rfl, rfl⟩

theorem step_cases (p : Playthrough) (clock : SampleClock) :
    (∃ w, (p.step clock).result = .ok w ∧ Informs clock (p.step clock).track (p.step clock).clock) ∨
    ∃ e, (p.step clock).result = .error e ∧ (p.step clock).clock.wait = clock.wait := by
  unfold step
  cases p.stream.fetch with
  | error e stream => exact .inr ⟨e, rfl, rfl⟩
  | ok c stream =>
    cases c with
    | write address data => exact .inl ⟨0, rfl, informs_publish _ _⟩
    | wait samples => exact .inl ⟨samples, rfl, informs_publish _ _⟩
    | unknown byte => exact .inl ⟨0, rfl, informs_publish _ _⟩
    | skip operands => exact passOver_cases _ _ _ _
    | block kind size => exact passOver_cases _ _ _ _
    | endOfData => exact restart_cases _ _

end Playthrough

namespace Player

/-! ### The turn of a track -/

/-- A turn waits, executes a command, or breaks off.  It waits only while the stream has not ended, and it
executes a command only when no wait is pending. -/
theorem turn_cases (t : Playthrough) (clock : SampleClock) :
    (∃ stream, turn t clock =
        (none, ⟨.ok 0, { t with stream }, ({ t with stream } : Playthrough).publish clock, [], []⟩) ∧
      (∃ done, t.stream.refill = .ok done stream) ∧ 0 < clock.wait ∧
      ({ t with stream } : Playthrough).isExhausted = false) ∨
    (∃ w s, turn t clock = (some (.ok w), s) ∧ clock.wait = 0 ∧ Playthrough.Informs clock s.track s.clock) ∨
    ∃ e s, turn t clock = (some (.error e), s) ∧ s.clock.wait = clock.wait := by
  rcases t.refill_cases clock with ⟨done, stream, hrefill, hstream⟩ | ⟨e, stream, hrefill, -⟩
  · simp only [turn, hrefill]
    by_cases hwaits : 0 < (({ t with stream } : Playthrough).publish clock).wait ∧
        ¬ ({ t with stream } : Playthrough).isExhausted
    · left
      rw [if_pos hwaits]
      exact ⟨stream, rfl, ⟨done, hstream⟩, hwaits.1, Bool.eq_false_iff.2 hwaits.2⟩
    · right
      rw [if_neg hwaits]
      rcases Playthrough.step_cases { t with stream } (({ t with stream } : Playthrough).publish clock) with
        ⟨w, hresult, hinforms⟩ | ⟨e, hresult, hwait⟩
      · left
        refine ⟨w, _, by rw [hresult], ?_, hinforms.wait_eq, hinforms.ready_of_ready, hinforms.hasData_eq⟩
        -- with a wait pending the stream would have ended, and the step would have failed
        by_cases hwait : 0 < clock.wait
        · have hexhausted : ({ t with stream } : Playthrough).isExhausted = true :=
            Classical.byContradiction fun hne => hwaits ⟨hwait, hne⟩
          rw [Playthrough.step_of_isExhausted hexhausted] at hresult
          cases hresult
        · exact UInt16.le_zero_iff.1 (UInt16.not_lt.1 hwait)
      · right
        exact ⟨e, _, by rw [hresult], hwait⟩
  · right; right
    exact ⟨.io e, { result := .error (.io e), track := { t with stream }, clock }, by simp only [turn, hrefill], rfl⟩

theorem capacity_turn (t : Playthrough) (clock : SampleClock) :
    (turn t clock).2.track.stream.capacity = t.stream.capacity := by
  have hrefill := t.capacity_refill clock
  unfold turn
  split
  · rename_i e track clock' heq
    rw [heq] at hrefill
    exact hrefill
  · rename_i done track clock' heq
    rw [heq] at hrefill
    split
    · exact hrefill
    · exact (track.capacity_step clock').trans hrefill

/-! ### The turn of a player -/

/-- The player after a turn that executed a command with this wait. -/
def afterCommand (p : Player) (s : Playthrough.Step) (wait : UInt16) : Player :=
  { p.absorb s with clock := (p.absorb s).clock.addWait wait }.observe

/-- One turn of the main loop without the switch of tracks: what the turn came to, if it was not spent waiting,
the choice of the next track, if there is to be one, and the player. -/
def playOn (p : Player) : Option (Except FormatError UInt16) × Option Choice × Player :=
  match p.track? with
  | none => (none, none, p)
  | some t =>
    match turn t p.clock with
    | (none, s) => (none, none, p.absorb s)
    | (some (.ok wait), s) =>
      let p' := p.afterCommand s wait
      (some (.ok wait), if p'.config.maxLoops ≤ p'.loopCount then p'.config.mode.advance? else none, p')
    | (some (.error e), s) => (some (.error e), some .next, (p.absorb s).report [.playbackStopped e])

/-- The wait of the command that the next turn executes, if it executes one. -/
def executes? (p : Player) : Option UInt16 :=
  match p.playOn with
  | (some (.ok wait), _, _) => some wait
  | _ => none

/-- The switch of tracks that a turn asks for, if it asks for one. -/
def switch : Option Choice → EStateM PlaybackError Player Unit
  | none => pure ()
  | some choice => fun p =>
    match selectTrack choice p with
    | .ok _ p => .ok () p
    | .error e p => .error e p

/-- A poll is a turn and then the switch that it asks for. -/
theorem poll_eq (p : Player) : p.poll = switch p.playOn.2.1 p.playOn.2.2 := by
  unfold poll playOn
  cases p.track? with
  | none => rfl
  | some t =>
    dsimp only
    rcases turn t p.clock with ⟨_ | ⟨e | wait⟩, s⟩
    · rfl
    · rfl
    · -- both sides wait for the same condition
      dsimp only
      unfold afterCommand
      generalize ({ p.absorb s with clock := (p.absorb s).clock.addWait wait } : Player).observe = p'
      cases (if p'.config.maxLoops ≤ p'.loopCount then p'.config.mode.advance? else none) <;> rfl

end Player

end VgmPlayback
