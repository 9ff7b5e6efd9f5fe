import Mathlib.Logic.Relation
import VgmPlayback.Proofs.PlayerRuns
import VgmPlayback.Proofs.Selection

/-!
# Where the track comes from

A player keeps four things apart that belong together: the track, its place in the library, the flags of the clock,
and the wait.  After every row of operations, whether they succeed or fail and whatever the library does, they agree
(`Player.coherent_run`): the clock is ready exactly if there is a track, it has data exactly if the stream of the
track has read ahead, and the track comes from the latest opening of the place that the selector is at, with the
metadata that were read then (`Player.PlaysFrom`).

Some operations that fail leave the clock uninformed.  That is repaired because a turn that breaks off asks for the
next track, which cannot be refused where there is a track (`selectTrack_comes_to`).
-/

namespace VgmPlayback

namespace Playthrough

/-- One thing that is done to a track while it is played. -/
inductive Move : Playthrough → Playthrough → Prop where
  | refill (t : Playthrough) (clock : SampleClock) : Move t (t.refill clock).2.1
  | step (t : Playthrough) (clock : SampleClock) : Move t (t.step clock).track
  | takeUnknown (t : Playthrough) : Move t t.takeUnknown.2

variable {t t' : Playthrough}

private theorem gd3_refill (t : Playthrough) (clock : SampleClock) : (t.refill clock).2.1.gd3 = t.gd3 := by
  rcases t.refill_cases clock with ⟨done, stream, hrefill, -⟩ | ⟨e, stream, hrefill, -⟩
  · rw [hrefill]
  · rw [hrefill]

theorem Move.gd3_eq (h : Move t t') : t'.gd3 = t.gd3 := by
  cases h with
  | refill clock => exact gd3_refill t clock
  | step clock =>
    obtain ⟨stream, loopCount, lastUnknown?, unknownCount, heq⟩ := t.track_step clock
    rw [heq]
  | takeUnknown => rfl

theorem gd3_eq_of_moves (h : Relation.ReflTransGen Move t t') : t'.gd3 = t.gd3 := by
  induction h with
  | refl => rfl
  | tail _ hmove ih => exact hmove.gd3_eq.trans ih

end Playthrough

open Playthrough (Move)

theorem Library.openTrack_eq_ok {l l' : Library} {index : Nat} {source : Source}
    (h : l.openTrack index = (.ok source, l')) :
    ∃ track, l'.tracks[index]? = some track ∧ track.contents track.openings = .ok source := by
  unfold openTrack at h
  cases htrack : l.tracks[index]? with
  | none =>
    rw [htrack] at h
    cases h
  | some track =>
    rw [htrack] at h
    have hlt := (Array.getElem?_eq_some_iff.1 htrack).1
    obtain ⟨hsource, rfl⟩ := Prod.mk.inj h
    exact ⟨{ track with openings := track.openings + 1 }, by rw [Array.getElem?_setIfInBounds_self_of_lt hlt],
      hsource⟩

namespace Player

/-- The track `t` was started from what the latest opening of the place `index` gave, its metadata were read as
`gd3`, and since then it has been played on. -/
def PlaysFrom (p : Player) (index : Nat) (gd3 : Gd3) (t : Playthrough) : Prop :=
  ∃ entry source started loaded notices,
    p.library.tracks[index]? = some entry ∧ entry.contents entry.openings = .ok source ∧
    Playthrough.start source p.config.bufferCapacity p.config.loopHeadLength = .ok started ∧
    started.verify = true ∧ started.loadMetadata = (.ok gd3, loaded, notices) ∧ Relation.ReflTransGen Move loaded t

/-- The parts of a player agree. -/
structure Coherent (p : Player) : Prop where
  ready_iff : p.clock.ready = true ↔ p.track?.isSome = true
  silent : p.track? = none → p.clock.wait = 0 ∧ p.clock.moves = false
  playing : ∀ t, p.track? = some t →
    p.clock.hasData = !t.stream.pending.isEmpty ∧
    ∃ gd3, p.PlaysFrom p.index gd3 t ∧ p.metadata? = some gd3 ∧ p.loopCount = t.loopCount

variable {p p' : Player} {t t' : Playthrough} {gd3 : Gd3} {index : Nat}

theorem PlaysFrom.gd3_eq (h : p.PlaysFrom index gd3 t) : t.gd3 = gd3 := by
  obtain ⟨entry, source, started, loaded, notices, -, -, -, -, hload, hmoves⟩ := h
  have hloaded : loaded.gd3 = gd3 := by
    unfold Playthrough.loadMetadata at hload
    dsimp only at hload
    cases hresult : (Gd3.read started.header started.stream.source).result with
    | error e =>
      rw [hresult] at hload
      cases hload
    | ok g =>
      rw [hresult] at hload
      cases hload
      rfl
  rw [Playthrough.gd3_eq_of_moves hmoves, hloaded]

theorem PlaysFrom.moves (h : p.PlaysFrom index gd3 t) (hmoves : Relation.ReflTransGen Move t t')
    (hlibrary : p'.library = p.library) (hconfig : p'.config = p.config) : p'.PlaysFrom index gd3 t' := by
  obtain ⟨entry, source, started, loaded, notices, hentry, hsource, hstart, hverify, hload, hloaded⟩ := h
  refine ⟨entry, source, started, loaded, notices, ?_, hsource, ?_, hverify, hload, hloaded.trans hmoves⟩
  · rw [hlibrary]
    exact hentry
  · rw [hconfig]
    exact hstart

/-- The track, if there is one, comes from the current place, and the clock knows whether its stream has data. -/
structure Tied (p : Player) : Prop where
  hasData_eq : ∀ t, p.track? = some t → p.clock.hasData = !t.stream.pending.isEmpty
  playsFrom : ∀ t, p.track? = some t → ∃ gd3, p.PlaysFrom p.index gd3 t

theorem coherent_of_tied (hs : Settled p) (h : Tied p) : Coherent p := by
  refine ⟨by rw [hs.ready_eq], ?_, ?_⟩
  · intro hnone
    have hwait := hs.wait_eq hnone
    exact ⟨hwait, by simp [SampleClock.moves, hwait]⟩
  · intro t htrack
    obtain ⟨gd3, hplays⟩ := h.playsFrom t htrack
    refine ⟨h.hasData_eq t htrack, gd3, hplays, ?_, ?_⟩
    · rw [metadata?, htrack, ← hplays.gd3_eq]
      rfl
    · rw [loopCount, htrack]
      rfl

private theorem tied_of_track?_eq_some (htrack : p.track? = some t)
    (hdata : p.clock.hasData = !t.stream.pending.isEmpty) (hplays : ∃ gd3, p.PlaysFrom p.index gd3 t) : Tied p := by
  constructor
  · intro t' ht'
    rw [htrack] at ht'
    cases ht'
    exact hdata
  · intro t' ht'
    rw [htrack] at ht'
    cases ht'
    exact hplays

private theorem tied_of_track?_eq_none (h : p.track? = none) : Tied p := by
  constructor
  · intro t htrack
    rw [h] at htrack
    cases htrack
  · intro t htrack
    rw [h] at htrack
    cases htrack

/-! ### Loading -/

private theorem playsFrom_of_load (h : load index p = .ok () p') :
    p'.selector = p.selector ∧ ∃ t gd3, p'.track? = some t ∧ p'.PlaysFrom index gd3 t := by
  unfold load at h
  dsimp only at h
  rcases hopen : p.library.openTrack index with ⟨e | source, library⟩
  · rw [hopen] at h
    cases h
  · obtain ⟨entry, hentry, hsource⟩ := Library.openTrack_eq_ok hopen
    rw [hopen] at h
    dsimp only at h
    unfold prepare at h
    cases hstart : Playthrough.start source p.config.bufferCapacity p.config.loopHeadLength with
    | error e =>
      rw [hstart] at h
      cases h
    | ok started =>
      rw [hstart] at h
      dsimp only at h
      by_cases hverify : started.verify = true
      · rw [if_neg (by simp [hverify])] at h
        rcases hload : started.loadMetadata with ⟨e | gd3, loaded, notices⟩
        · rw [hload] at h
          cases h
        · rw [hload] at h
          cases h
          exact ⟨rfl, loaded, gd3, rfl, entry, source, started, loaded, notices, hentry, hsource, hstart, hverify,
            hload, .refl⟩
      · rw [if_pos (by simp [hverify])] at h
        cases h

/-- A row of attempts that arrives has brought the selector along. -/
private theorem playsFrom_of_loadPlayable {attempts i : Nat} (h : loadPlayable attempts index p = .ok i p')
    (hcurrent : p.selector.current = index) :
    p'.selector.current = i ∧ ∃ t gd3, p'.track? = some t ∧ p'.PlaysFrom i gd3 t := by
  induction attempts generalizing index p with
  | zero => cases h
  | succ attempts ih =>
    unfold loadPlayable at h
    cases hload : load index p with
    | ok _ p'' =>
      rw [hload] at h
      cases h
      obtain ⟨hselector, hplays⟩ := playsFrom_of_load hload
      exact ⟨by rw [hselector, hcurrent], hplays⟩
    | error e p'' =>
      simp only [hload] at h
      rcases Selector.select_cases (p''.report [.trackSkipped (p''.library.name? index) e]).library.names .next
          (p''.report [.trackSkipped (p''.library.name? index) e]).selector with
        ⟨-, hselect⟩ | ⟨name, hchoice, -⟩ | ⟨next, words, -, hselect⟩
      · rw [hselect] at h
        cases h
      · cases hchoice
      · rw [hselect] at h
        exact ih (p := { p''.report [.trackSkipped (p''.library.name? index) e] with
          selector := { current := next, words } }) h rfl

private theorem arrived_tied (harrived : Arrived index p p') (hcurrent : p'.selector.current = index)
    (hplays : ∃ t gd3, p'.track? = some t ∧ p'.PlaysFrom index gd3 t) : Tied p' := by
  obtain ⟨t, gd3, htrack, hplays⟩ := hplays
  obtain ⟨t', htrack', -, hclock⟩ := harrived.track
  rw [htrack] at htrack'
  cases htrack'
  refine tied_of_track?_eq_some htrack (by rw [hclock]) ?_
  rw [Player.index, hcurrent]
  exact ⟨gd3, hplays⟩

/-- A switch of tracks is refused, for want of tracks or of a name, and then changes no more than whether the clock
is ready; or it attempts to load as many tracks as there are, from the chosen one on. -/
theorem selectTrack_attempts (choice : Choice) (p : Player) :
    ((p.library.size = 0 ∨ ∃ name, choice = .request name) ∧
      leftBy (selectTrack choice p) = { p with clock := { p.clock with ready := p.track?.isSome } }) ∨
    ∃ index words, index < p.library.size ∧ selectTrack choice p = loadPlayable p.library.size index
      { p with selector := { current := index, words }, clock := { p.clock with ready := false } } := by
  unfold selectTrack
  dsimp only
  rcases Selector.select_cases p.library.names choice p.selector with
    ⟨hempty, hselect⟩ | ⟨name, hchoice, -, hselect⟩ | ⟨index, words, hlt, hselect⟩
  · left
    refine ⟨.inl ?_, ?_⟩
    · rw [← Library.length_names, hempty]
      rfl
    · rw [hselect]
      cases p.track? <;> rfl
  · left
    refine ⟨.inr ⟨name, hchoice⟩, ?_⟩
    rw [hselect]
    cases p.track? <;> rfl
  · rw [Library.length_names] at hlt
    exact .inr ⟨index, words, hlt, by rw [hselect]⟩

/-- A switch is refused, or the track it leaves, if it leaves one, is tied to the player. -/
theorem selectTrack_comes_to (choice : Choice) (p : Player) :
    ((p.library.size = 0 ∨ ∃ name, choice = .request name) ∧
      leftBy (selectTrack choice p) = { p with clock := { p.clock with ready := p.track?.isSome } }) ∨
    Tied (leftBy (selectTrack choice p)) := by
  rcases selectTrack_attempts choice p with hrefused | ⟨index, words, hlt, hattempts⟩
  · exact .inl hrefused
  · right
    rw [hattempts]
    rcases loadPlayable_cases p.library.size index
        { p with selector := { current := index, words }, clock := { p.clock with ready := false } } with
      ⟨i, p', hload, harrived⟩ | ⟨e, p', hload, hstranded | ⟨hzero, -⟩⟩
    · obtain ⟨hcurrent, hplays⟩ := playsFrom_of_loadPlayable hload rfl
      rw [hload]
      exact arrived_tied harrived hcurrent hplays
    · rw [hload]
      exact tied_of_track?_eq_none hstranded.track?_eq
    · omega

/-! ### Turns -/

private theorem moves_turn (t : Playthrough) (clock : SampleClock) :
    Relation.ReflTransGen Move t (turn t clock).2.track := by
  have hrefill := Move.refill t clock
  unfold turn
  rcases heq : t.refill clock with ⟨e | done, track, clock'⟩
  · rw [heq] at hrefill
    exact .single hrefill
  · rw [heq] at hrefill
    dsimp only
    split
    · exact .single hrefill
    · exact .tail (.single hrefill) (Move.step track clock')

/-- A turn that does not break off plays the track on and informs the clock. -/
private theorem tied_playOn (h : Tied p) (htrack : p.track? = some t) :
    Tied p.playOn.2.2 ∨ p.playOn.2.1 = some .next := by
  obtain ⟨gd3, hplays⟩ := h.playsFrom t htrack
  obtain ⟨hlibrary, hselector, hconfig⟩ := playOn_keeps p
  have hindex : p.playOn.2.2.index = p.index := by rw [Player.index, hselector, Player.index]
  have hmoves := moves_turn t p.clock
  -- it is enough to know the track of the player after the turn, and what the clock has been told of it
  have htied : ∀ t', p.playOn.2.2.track? = some t' → Relation.ReflTransGen Move t t' →
      p.playOn.2.2.clock.hasData = (!t'.stream.pending.isEmpty) → Tied p.playOn.2.2 := by
    intro t' htrack' hmoves' hdata
    refine tied_of_track?_eq_some htrack' hdata ?_
    rw [hindex]
    exact ⟨gd3, hplays.moves hmoves' hlibrary hconfig⟩
  rcases turn_cases t p.clock with ⟨stream, hturn, -⟩ | ⟨w, s, hturn, -, hinforms⟩ | ⟨e, s, hturn, -⟩
  · left
    have hplay : p.playOn = (none, none, { p with
        track? := some { t with stream }
        clock := ({ t with stream } : Playthrough).publish p.clock }) := by
      simp only [playOn, htrack, hturn, absorb_waited]
    rw [hturn] at hmoves
    refine htied { t with stream } ?_ hmoves ?_
    · rw [hplay]
    · rw [hplay]
      rfl
  · left
    have hplay : p.playOn.2.2 = p.afterCommand s w := by simp only [playOn, htrack, hturn]
    obtain ⟨lastUnknown?, observed, hafter⟩ := afterCommand_cases p s w
    rw [hturn] at hmoves
    refine htied s.track.takeUnknown.2 ?_ (hmoves.tail (.takeUnknown s.track)) ?_
    · rw [hplay]
      exact congrArg track? (observe_eq rfl)
    · rw [hplay, hafter]
      exact hinforms.hasData_eq
  · right
    simp only [playOn, htrack, hturn]

/-! ### Runs -/

private theorem tied_ready (h : Tied p) (ready : Bool) : Tied { p with clock := { p.clock with ready } } :=
  ⟨h.hasData_eq, h.playsFrom⟩

private theorem tied_selectTrack (h : Tied p) (choice : Choice) : Tied (leftBy (selectTrack choice p)) := by
  rcases selectTrack_comes_to choice p with ⟨-, heq⟩ | htied
  · rw [heq]
    exact tied_ready h _
  · exact htied

private theorem tied_poll (h : Tied p) : Tied (p.apply .poll) := by
  rw [apply_poll]
  cases htrack : p.track? with
  | none =>
    rw [playOn_of_track?_eq_none htrack]
    exact h
  | some t =>
    rcases tied_playOn h htrack with htied | hnext
    · cases p.playOn.2.1 with
      | none => exact htied
      | some choice => exact tied_selectTrack htied choice
    · rw [hnext]
      rcases selectTrack_comes_to .next p.playOn.2.2 with ⟨hsize | ⟨name, hchoice⟩, -⟩ | htied
      · -- the track came from a place of the library
        obtain ⟨gd3, entry, -, -, -, -, hentry, -⟩ := h.playsFrom t htrack
        have hlt := (Array.getElem?_eq_some_iff.1 hentry).1
        rw [(playOn_keeps p).1, Library.size] at hsize
        omega
      · cases hchoice
      · exact htied

theorem tied_apply (h : Tied p) (op : Operation) : Tied (p.apply op) := by
  cases op with
  | poll => exact tied_poll h
  | tick =>
    refine ⟨?_, h.playsFrom⟩
    intro t htrack
    exact (SampleClock.hasData_tick p.clock).trans (h.hasData_eq t htrack)
  | select choice => exact tied_selectTrack h choice
  | setMode mode => exact ⟨h.hasData_eq, h.playsFrom⟩
  | observe => exact ⟨h.hasData_eq, h.playsFrom⟩

theorem tied_run (h : Tied p) (ops : List Operation) : Tied (p.run ops) := run_keeps tied_apply h ops

/-- Whatever the library does, and whether or not the operations succeed, starting included: after each of them the
clock is ready exactly if there is a track, without a track there is no wait and no tick counts, and with a track the
clock has data exactly if its stream has read ahead, and the place, the metadata and the loops that the player tells
are those of the track. -/
theorem coherent_run (library : Library) (config : PlayerConfig) (words : RandomWords) (ops : List Operation) :
    Coherent ((leftBy (start library config words)).run ops) := by
  have hsilent : ({ library, config, selector := { words } } : Player).track? = none := rfl
  have htied : Tied (leftBy (start library config words)) := by
    rw [leftBy_start]
    exact tied_selectTrack (tied_of_track?_eq_none hsilent) .first
  exact coherent_of_tied (settled_run (settled_start library config words) ops) (tied_run htied ops)

end Player

end VgmPlayback
