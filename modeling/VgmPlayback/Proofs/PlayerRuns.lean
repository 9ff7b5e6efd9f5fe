import VgmPlayback.Proofs.Turns

/-!
# Runs of the player

A run is a row of operations on a player, each of which may fail.  Which tracks a player has loaded is told by
its notices (`loaded`).  The lemmas say all that an operation can come to: a load arrives at a track or leaves none
(`load_cases`), a switch arrives, is refused and changes nothing, or leaves no track (`selectTrack_cases`), and a
turn waits, executes a command, or breaks off (`playOn_cases`).  A player that has started is `Settled`: its clock
is ready exactly if a track is loaded, without a track there is no wait, and the stream of a track has room
(`settled_run`).
-/

namespace VgmPlayback

/-- The place of the track that a notice tells to be loaded. -/
def Notice.loadedIndex? : Notice → Option Nat
  | nowPlaying index _ _ => some index
  | _ => none

namespace Player

/-- The places of the tracks that were loaded, in order. -/
def loaded (p : Player) : List Nat := p.notices.toList.filterMap Notice.loadedIndex?

inductive Operation where
  | poll
  | tick
  | select (choice : Choice)
  | setMode (mode : PlayMode)
  | observe
deriving DecidableEq, Repr

/-- The player that an action leaves behind, whether or not it failed. -/
def leftBy {α : Type} : EStateM.Result PlaybackError Player α → Player
  | .ok _ p => p
  | .error _ p => p

def succeeds {α : Type} : EStateM.Result PlaybackError Player α → Bool
  | .ok .. => true
  | .error .. => false

theorem eq_ok_of_succeeds {r : EStateM.Result PlaybackError Player Unit} (h : succeeds r = true) :
    r = .ok () (leftBy r) := by
  cases r with
  | ok _ p => rfl
  | error e p => cases h

def apply (p : Player) : Operation → Player
  | .poll => leftBy p.poll
  | .tick => { p with clock := p.clock.tick }
  | .select choice => leftBy (selectTrack choice p)
  | .setMode mode => p.setMode mode
  | .observe => p.observeUnknown

def run (p : Player) (ops : List Operation) : Player := ops.foldl apply p

theorem run_cons (p : Player) (op : Operation) (ops : List Operation) :
    p.run (op :: ops) = (p.apply op).run ops := rfl

theorem run_append (p : Player) (ops ops' : List Operation) : p.run (ops ++ ops') = (p.run ops).run ops' :=
  List.foldl_append

/-- What every operation keeps, a run does. -/
theorem run_keeps {P : Player → Prop} (hop : ∀ {p}, P p → ∀ op, P (p.apply op)) {p : Player} (h : P p)
    (ops : List Operation) : P (p.run ops) := by
  induction ops generalizing p with
  | nil => exact h
  | cons op ops ih => exact ih (hop h op)

/-! ### Transcripts -/

/-- What an operation answers its caller. -/
inductive Answer where
  | polled (result : Except PlaybackError Unit)
  /-- Whether the tick counted. -/
  | ticked (counted : Bool)
  | selected (result : Except PlaybackError Nat)
  | done

/-- The value or the error of an action, without the player. -/
def outcome {α : Type} : EStateM.Result PlaybackError Player α → Except PlaybackError α
  | .ok a _ => .ok a
  | .error e _ => .error e

def answer (p : Player) : Operation → Answer
  | .poll => .polled (outcome p.poll)
  | .tick => .ticked p.clock.moves
  | .select choice => .selected (outcome (selectTrack choice p))
  | .setMode _ => .done
  | .observe => .done

/-- An operation of a run, its answer, and the player that it left behind. -/
structure Entry where
  operation : Operation
  answer : Answer
  player : Player

/-- All that can be seen of a run. -/
def transcript (p : Player) : List Operation → List Entry
  | [] => []
  | op :: ops => { operation := op, answer := p.answer op, player := p.apply op } :: (p.apply op).transcript ops

/-! ### Notices and chip events -/

theorem loaded_report (p : Player) (notices : List Notice) :
    (p.report notices).loaded = p.loaded ++ notices.filterMap Notice.loadedIndex? := by
  simp [loaded, report]

private theorem loadedIndex?_passOver (t : Playthrough) (clock : SampleClock) (count : UInt32) {notices : List Notice}
    (h : notices.filterMap Notice.loadedIndex? = []) :
    (t.passOver clock count notices).notices.filterMap Notice.loadedIndex? = [] := by
  unfold Playthrough.passOver
  cases t.stream.discard count <;> exact h

private theorem loadedIndex?_step (t : Playthrough) (clock : SampleClock) :
    (t.step clock).notices.filterMap Notice.loadedIndex? = [] := by
  unfold Playthrough.step
  cases t.stream.fetch with
  | error e stream => rfl
  | ok c stream =>
    cases c with
    | skip operands => exact loadedIndex?_passOver _ _ _ rfl
    | block kind size => exact loadedIndex?_passOver _ _ _ rfl
    | endOfData =>
      simp only [Playthrough.perform, Playthrough.restart]
      cases LoopHead.inject t.loopHead stream.reset <;> rfl
    | _ => rfl

theorem loadedIndex?_turn (t : Playthrough) (clock : SampleClock) :
    (turn t clock).2.notices.filterMap Notice.loadedIndex? = [] := by
  rcases t.refill_cases clock with ⟨done, stream, hrefill, -⟩ | ⟨e, stream, hrefill, -⟩
  · simp only [turn, hrefill]
    split
    · rfl
    · exact loadedIndex?_step _ _
  · simp only [turn, hrefill]
    rfl

/-! ### Loading -/

private theorem loadMetadata_cases (t : Playthrough) :
    t.loadMetadata.2.2.filterMap Notice.loadedIndex? = [] ∧
      t.loadMetadata.2.1.stream.pending = t.stream.pending := by
  have hfindings : ∀ findings : List Gd3.Finding,
      (findings.map Notice.metadata).filterMap Notice.loadedIndex? = [] := by
    intro findings
    rw [List.filterMap_map, List.filterMap_eq_nil_iff]
    exact fun _ _ => rfl
  unfold Playthrough.loadMetadata
  dsimp only
  cases (Gd3.read t.header t.stream.source).result <;> exact ⟨hfindings _, rfl⟩

theorem prepare_cases (config : PlayerConfig) (source : Source) (clock : SampleClock) :
    (prepare config source clock).2.1.wait = clock.wait ∧ (prepare config source clock).2.1.ready = clock.ready ∧
      (prepare config source clock).2.2.filterMap Notice.loadedIndex? = [] ∧
      ∀ t, (prepare config source clock).1 = .ok t →
        (prepare config source clock).2.1.hasData = !t.stream.pending.isEmpty ∧ 0 < t.stream.capacity := by
  unfold prepare
  cases hstart : Playthrough.start source config.bufferCapacity config.loopHeadLength with
  | error e => exact ⟨rfl, rfl, rfl, nofun⟩
  | ok t =>
    have hroom := Playthrough.capacity_pos_of_start hstart
    have hcapacity := t.capacity_loadMetadata
    dsimp only
    by_cases hverify : (!t.verify) = true
    · rw [if_pos hverify]
      exact ⟨rfl, rfl, rfl, nofun⟩
    · rw [if_neg hverify]
      -- the clock was informed before the metadata was read, which leaves the queue alone
      obtain ⟨hnotices, hpending⟩ := loadMetadata_cases t
      rcases hload : t.loadMetadata with ⟨e | gd3, t', notices⟩
      · rw [hload] at hnotices
        exact ⟨rfl, rfl, hnotices, nofun⟩
      · rw [hload] at hnotices hpending hcapacity
        refine ⟨rfl, rfl, hnotices, ?_⟩
        intro t'' heq
        cases heq
        have hpending : t'.stream.pending = t.stream.pending := hpending
        have hcapacity : t'.stream.capacity = t.stream.capacity := hcapacity
        refine ⟨?_, by omega⟩
        show (!t.stream.pending.isEmpty) = !t'.stream.pending.isEmpty
        rw [hpending]

/-- `p'` is `p` with the track at `index` newly loaded. -/
structure Arrived (index : Nat) (p p' : Player) : Prop where
  track : ∃ t, p'.track? = some t ∧ 0 < t.stream.capacity ∧
    p'.clock = { ready := true, hasData := !t.stream.pending.isEmpty, wait := 0 }
  loaded_eq : p'.loaded = p.loaded ++ [index]
  chip_eq : ∃ hz, p'.chip.toList = p.chip.toList ++ [.clock hz, .reset]

/-- `p'` is `p` with its track gone and no other loaded. -/
structure Stranded (p p' : Player) : Prop where
  track?_eq : p'.track? = none
  wait_eq : p'.clock.wait = 0
  ready_eq : p'.clock.ready = p.clock.ready
  loaded_eq : p'.loaded = p.loaded
  chip_eq : p'.chip = p.chip

/-- A load arrives at the track, or it fails and leaves no track. -/
theorem load_cases (index : Nat) (p : Player) :
    (∃ p', load index p = .ok () p' ∧ Arrived index p p') ∨ ∃ e p', load index p = .error e p' ∧ Stranded p p' := by
  unfold load
  dsimp only
  rcases p.library.openTrack index with ⟨e | source, library⟩
  · exact .inr ⟨_, _, rfl, rfl, rfl, rfl, rfl, rfl⟩
  · dsimp only
    obtain ⟨hwait, hready, hnotices, hdata⟩ := prepare_cases p.config source { p.clock with wait := 0 }
    rcases hprepare : prepare p.config source { p.clock with wait := 0 } with ⟨e | t, clock, notices⟩
    · rw [hprepare] at hwait hready hnotices
      refine .inr ⟨_, _, rfl, rfl, hwait, hready, ?_, rfl⟩
      rw [loaded_report, hnotices, List.append_nil]
      rfl
    · rw [hprepare] at hwait hready hnotices hdata
      have hwait : clock.wait = 0 := hwait
      obtain ⟨hdata, hroom⟩ := hdata t rfl
      have hdata : clock.hasData = !t.stream.pending.isEmpty := hdata
      refine .inl ⟨_, rfl, ⟨t, rfl, hroom, ?_⟩, ?_, t.header.get .ym2151Clock, ?_⟩
      · show ({ clock with ready := true } : SampleClock) = _
        rw [← hwait, ← hdata]
      · show (report _ _).loaded = _
        rw [loaded_report, List.filterMap_append, hnotices]
        rfl
      · simp [send, report]

theorem Stranded.arrived {index : Nat} {p p' p'' : Player} (h : Stranded p p') (h' : Arrived index p' p'') :
    Arrived index p p'' := by
  refine ⟨h'.track, ?_, ?_⟩
  · rw [h'.loaded_eq, h.loaded_eq]
  · rw [← h.chip_eq]
    exact h'.chip_eq

theorem Stranded.trans {p p' p'' : Player} (h : Stranded p p') (h' : Stranded p' p'') : Stranded p p'' :=
  ⟨h'.track?_eq, h'.wait_eq, h'.ready_eq.trans h.ready_eq, h'.loaded_eq.trans h.loaded_eq, h'.chip_eq.trans h.chip_eq⟩

/-- A row of attempts arrives at a track or leaves none; without any attempt nothing changes. -/
theorem loadPlayable_cases (attempts index : Nat) (p : Player) :
    (∃ i p', loadPlayable attempts index p = .ok i p' ∧ Arrived i p p') ∨
    ∃ e p', loadPlayable attempts index p = .error e p' ∧ (Stranded p p' ∨ attempts = 0 ∧ p' = p) := by
  induction attempts generalizing index p with
  | zero => exact .inr ⟨_, p, rfl, .inr ⟨rfl, rfl⟩⟩
  | succ attempts ih =>
    unfold loadPlayable
    rcases load_cases index p with ⟨p', hload, harrived⟩ | ⟨e, p', hload, hstranded⟩
    · exact .inl ⟨index, p', by simp only [hload], harrived⟩
    · -- only the report of the skipped track and the move of the selector come in between
      have hleft : ∀ selector, Stranded p { p'.report [.trackSkipped (p'.library.name? index) e] with selector } :=
        fun selector => ⟨hstranded.track?_eq, hstranded.wait_eq, hstranded.ready_eq,
          ((loaded_report p' _).trans (List.append_nil _)).trans hstranded.loaded_eq, hstranded.chip_eq⟩
      simp only [hload]
      split
      · rename_i e' selector hselect
        exact .inr ⟨_, _, rfl, .inl (hleft selector)⟩
      · rename_i next selector hselect
        rcases ih next { p'.report [.trackSkipped (p'.library.name? index) e] with selector } with
          ⟨i, p'', hnext, harrived⟩ | ⟨e', p'', hnext, hstranded' | ⟨-, heq⟩⟩
        · exact .inl ⟨i, p'', hnext, (hleft selector).arrived harrived⟩
        · exact .inr ⟨e', p'', hnext, .inl ((hleft selector).trans hstranded')⟩
        · exact .inr ⟨e', p'', hnext, .inl (heq ▸ hleft selector)⟩

private theorem size_pos_of_select {library : Library} {choice : Choice} {s s' : Selector} {index : Nat}
    (h : Selector.select library.names choice s = .ok index s') : library.size ≠ 0 := by
  intro hsize
  simp [Selector.select, hsize] at h

private theorem selector_eq_of_select {library : Library} {choice : Choice} {s s' : Selector} {e : PlaybackError}
    (h : Selector.select library.names choice s = .error e s') : s' = s := by
  unfold Selector.select at h
  dsimp only at h
  split at h
  · cases h; rfl
  · split at h <;> cases h
    rfl

/-- A choice that the selector refuses changes no more than whether the clock is ready. -/
theorem selectTrack_of_select_eq_error {choice : Choice} {p : Player} {e : PlaybackError} {selector : Selector}
    (h : Selector.select p.library.names choice p.selector = .error e selector) :
    selectTrack choice p = .error e { p with clock := { p.clock with ready := p.track?.isSome } } := by
  unfold selectTrack
  dsimp only
  rw [h, selector_eq_of_select h]
  cases p.track? <;> rfl

/-- A switch of tracks is refused and changes no more than whether the clock is ready, or it arrives at a track, or
it leaves none. -/
theorem selectTrack_cases (choice : Choice) (p : Player) :
    (∃ e, selectTrack choice p = .error e { p with clock := { p.clock with ready := p.track?.isSome } }) ∨
    (∃ index p', selectTrack choice p = .ok index p' ∧ Arrived index p p') ∨
    ∃ e p', selectTrack choice p = .error e p' ∧
      Stranded { p with clock := { p.clock with ready := false } } p' := by
  rcases hselect : Selector.select p.library.names choice p.selector with ⟨index, selector⟩ | ⟨e, selector⟩
  · right
    unfold selectTrack
    dsimp only
    rw [hselect]
    dsimp only
    rcases loadPlayable_cases p.library.size index
        { p with selector, clock := { p.clock with ready := false } } with
      ⟨i, p', hload, harrived⟩ | ⟨e, p', hload, hstranded | ⟨hzero, -⟩⟩
    · exact .inl ⟨i, p', hload, harrived.track, harrived.loaded_eq, harrived.chip_eq⟩
    · exact .inr ⟨e, p', hload, hstranded.track?_eq, hstranded.wait_eq, hstranded.ready_eq, hstranded.loaded_eq,
        hstranded.chip_eq⟩
    · -- there is an attempt for every track, and there is a track
      exact absurd hzero (size_pos_of_select hselect)
  · exact .inl ⟨e, selectTrack_of_select_eq_error hselect⟩

/-- What loading keeps, wherever the selector is, whatever the clock says and whatever was reported, a row of attempts
does. -/
theorem loadPlayable_keeps {P : Player → Prop} (hload : ∀ {p}, P p → ∀ index, P (leftBy (load index p)))
    (hpassed : ∀ {p}, P p → ∀ selector clock notices, P { p with selector, clock, notices }) {p : Player} (h : P p)
    (attempts index : Nat) : P (leftBy (loadPlayable attempts index p)) := by
  induction attempts generalizing index p with
  | zero => exact h
  | succ attempts ih =>
    have hp := hload h index
    unfold loadPlayable
    cases heq : load index p with
    | ok _ p' =>
      rw [heq] at hp
      exact hp
    | error e p' =>
      rw [heq] at hp
      have hpassed' : ∀ selector, P { p'.report [.trackSkipped (p'.library.name? index) e] with selector } :=
        fun selector => hpassed hp selector _ _
      dsimp only
      split
      · exact hpassed' _
      · exact ih (hpassed' _) _

theorem selectTrack_keeps {P : Player → Prop} (hload : ∀ {p}, P p → ∀ index, P (leftBy (load index p)))
    (hpassed : ∀ {p}, P p → ∀ selector clock notices, P { p with selector, clock, notices }) {p : Player} (h : P p)
    (choice : Choice) : P (leftBy (selectTrack choice p)) := by
  unfold selectTrack
  dsimp only
  split
  · exact hpassed h _ _ _
  · exact loadPlayable_keeps hload hpassed (hpassed h _ _ _) _ _

/-! ### One turn -/

/-- A turn spent waiting leaves no more than the track and the clock. -/
theorem absorb_waited (p : Player) (t : Playthrough) (clock : SampleClock) :
    p.absorb ⟨.ok 0, t, clock, [], []⟩ = { p with track? := some t, clock } := by
  simp only [absorb, send, report, List.map_nil, Array.append_empty]

theorem loaded_absorb_turn (p : Player) (t : Playthrough) (clock : SampleClock) :
    (p.absorb (turn t clock).2).loaded = p.loaded := by
  show (report _ _).loaded = _
  rw [loaded_report, loadedIndex?_turn, List.append_nil]
  rfl

/-- The observer of unknown opcodes takes the latest one off the track and leaves everything else alone. -/
theorem observe_eq {p : Player} {t : Playthrough} (htrack : p.track? = some t) : p.observe = { p with
    track? := some t.takeUnknown.2
    observed := if p.observing then p.observed ++ t.lastUnknown?.toArray else p.observed } := by
  simp only [observe, htrack, Playthrough.takeUnknown]
  cases hunknown : t.lastUnknown? with
  | none =>
    have htaken : ({ t with lastUnknown? := none } : Playthrough) = t := by rw [← hunknown]
    rw [htaken, ← htrack]
    simp
  | some e => simp

/-- A command leaves behind its step, its wait, and what the observer takes off the track. -/
theorem afterCommand_cases (p : Player) (s : Playthrough.Step) (wait : UInt16) :
    ∃ lastUnknown? observed, p.afterCommand s wait = { p.absorb s with
      clock := s.clock.addWait wait
      track? := some { s.track with lastUnknown? }
      observed } :=
  ⟨none, _, @observe_eq { p.absorb s with clock := s.clock.addWait wait } s.track rfl⟩

theorem wait_addWait {c : SampleClock} (h : c.wait = 0) (w : UInt16) : (c.addWait w).wait = w := by
  have hlt := w.toNat_lt
  apply UInt16.toNat.inj
  simp only [SampleClock.addWait, h, UInt16.toNat_zero, UInt16.toNat_ofNat']
  omega

/-- `p'` still has the track at which `p` had `t`, played on. -/
structure Stayed (p : Player) (t : Playthrough) (p' : Player) : Prop where
  track : ∃ t', p'.track? = some t' ∧ t'.stream.capacity = t.stream.capacity
  loaded_eq : p'.loaded = p.loaded

private theorem stayed_absorb {p : Player} {t : Playthrough} :
    Stayed p t (p.absorb (turn t p.clock).2) :=
  ⟨⟨_, rfl, capacity_turn t p.clock⟩, loaded_absorb_turn p t p.clock⟩

/-- A turn of a player with a track waits, executes a command, or breaks off.  In each case the track stays. -/
theorem playOn_cases {p : Player} {t : Playthrough} (htrack : p.track? = some t) :
    (∃ stream done, p.playOn = (none, none, { p with
          track? := some { t with stream },
          clock := ({ t with stream } : Playthrough).publish p.clock }) ∧
      t.stream.refill = .ok done stream ∧ 0 < p.clock.wait ∧
      ({ t with stream } : Playthrough).isExhausted = false) ∨
    (∃ wait choice? p', p.playOn = (some (.ok wait), choice?, p') ∧ p.clock.wait = 0 ∧ p'.clock.wait = wait ∧
      (p.clock.ready = true → p'.clock.ready = true) ∧ Stayed p t p') ∨
    ∃ e p', p.playOn = (some (.error e), some .next, p') ∧ p'.clock.wait = p.clock.wait ∧ Stayed p t p' := by
  have hstayed := @stayed_absorb p t
  simp only [playOn, htrack]
  rcases turn_cases t p.clock with
    ⟨stream, hturn, ⟨done, hrefill⟩, hwait, hleft⟩ | ⟨wait, s, hturn, hwait, hinforms⟩ | ⟨e, s, hturn, hwait⟩
  · left
    refine ⟨stream, done, ?_, hrefill, hwait, hleft⟩
    simp only [hturn, absorb_waited]
  · right; left
    rw [hturn] at hstayed ⊢
    obtain ⟨lastUnknown?, observed, hafter⟩ := afterCommand_cases p s wait
    refine ⟨wait, _, p.afterCommand s wait, rfl, hwait, ?_, ?_, ?_⟩
    · rw [hafter]
      exact wait_addWait (hinforms.wait_eq.trans hwait) wait
    · intro hready
      rw [hafter]
      exact hinforms.ready_of_ready hready
    · obtain ⟨_, heq, hcapacity⟩ := hstayed.track
      cases heq
      rw [hafter]
      exact ⟨⟨_, rfl, hcapacity⟩, hstayed.loaded_eq⟩
  · right; right
    rw [hturn] at hstayed ⊢
    refine ⟨e, (p.absorb s).report [.playbackStopped e], rfl, hwait, hstayed.track, ?_⟩
    exact ((loaded_report _ _).trans (List.append_nil _)).trans hstayed.loaded_eq

theorem playOn_of_track?_eq_none {p : Player} (h : p.track? = none) : p.playOn = (none, none, p) := by
  simp only [playOn, h]

/-- A turn leaves the library, the selector and the settings alone. -/
theorem playOn_keeps (p : Player) :
    p.playOn.2.2.library = p.library ∧ p.playOn.2.2.selector = p.selector ∧ p.playOn.2.2.config = p.config := by
  cases htrack : p.track? with
  | none =>
    rw [playOn_of_track?_eq_none htrack]
    exact ⟨rfl, rfl, rfl⟩
  | some t =>
    simp only [playOn, htrack]
    rcases turn t p.clock with ⟨_ | ⟨e | wait⟩, s⟩
    · exact ⟨rfl, rfl, rfl⟩
    · exact ⟨rfl, rfl, rfl⟩
    · obtain ⟨lastUnknown?, observed, hafter⟩ := afterCommand_cases p s wait
      dsimp only
      rw [hafter]
      exact ⟨rfl, rfl, rfl⟩

/-- A turn asks for no more than a switch to the next track or to a random one. -/
theorem choice_of_playOn {p : Player} {choice : Choice} (h : p.playOn.2.1 = some choice) :
    choice = .next ∨ choice = .random := by
  cases htrack : p.track? with
  | none =>
    rw [playOn_of_track?_eq_none htrack] at h
    cases h
  | some t =>
    simp only [playOn, htrack] at h
    rcases hturn : turn t p.clock with ⟨_ | ⟨e | wait⟩, s⟩
    · rw [hturn] at h
      cases h
    · rw [hturn] at h
      cases h
      exact .inl rfl
    · rw [hturn] at h
      dsimp only at h
      split at h
      · cases hmode : (p.afterCommand s wait).config.mode <;> rw [hmode] at h <;> cases h
        · exact .inr rfl
        · exact .inl rfl
      · cases h

theorem apply_poll (p : Player) : p.apply .poll =
    match p.playOn.2.1 with
    | none => p.playOn.2.2
    | some choice => leftBy (selectTrack choice p.playOn.2.2) := by
  show leftBy p.poll = _
  rw [poll_eq]
  cases p.playOn.2.1 with
  | none => rfl
  | some choice =>
    simp only [switch]
    cases selectTrack choice p.playOn.2.2 <;> rfl

/-! ### Settled players -/

/-- The clock is ready exactly if a track is loaded, without a track there is no wait, and the stream of a track
has room for a byte at least. -/
structure Settled (p : Player) : Prop where
  ready_eq : p.clock.ready = p.track?.isSome
  wait_eq : p.track? = none → p.clock.wait = 0
  capacity_pos : ∀ t, p.track? = some t → 0 < t.stream.capacity

private theorem settled_of_arrived {index : Nat} {p p' : Player} (h : Arrived index p p') : Settled p' := by
  obtain ⟨t, htrack, hroom, hclock⟩ := h.track
  refine ⟨by rw [htrack, hclock]; rfl, ?_, ?_⟩
  · intro _
    rw [hclock]
  · intro t' htrack'
    rw [htrack] at htrack'
    cases htrack'
    exact hroom

theorem Stayed.wait_eq {p p' : Player} {t : Playthrough} (h : Stayed p t p') :
    p'.track? = none → p'.clock.wait = 0 := by
  obtain ⟨t', htrack, -⟩ := h.track
  intro hnone
  rw [htrack] at hnone
  cases hnone

private theorem Stayed.capacity_pos {p p' : Player} {t : Playthrough} (h : Stayed p t p')
    (hroom : 0 < t.stream.capacity) : ∀ t', p'.track? = some t' → 0 < t'.stream.capacity := by
  obtain ⟨t', htrack, hcapacity⟩ := h.track
  intro t'' htrack'
  rw [htrack] at htrack'
  cases htrack'
  omega

theorem settled_selectTrack {p : Player} (hwait : p.track? = none → p.clock.wait = 0)
    (hroom : ∀ t, p.track? = some t → 0 < t.stream.capacity) (choice : Choice) :
    Settled (leftBy (selectTrack choice p)) := by
  rcases selectTrack_cases choice p with ⟨e, hselect⟩ | ⟨index, p', hselect, harrived⟩ | ⟨e, p', hselect, hstranded⟩
  · rw [hselect]
    exact ⟨rfl, hwait, hroom⟩
  · rw [hselect]
    exact settled_of_arrived harrived
  · rw [hselect]
    have hnone := hstranded.track?_eq
    refine ⟨?_, fun _ => hstranded.wait_eq, ?_⟩
    · show p'.clock.ready = p'.track?.isSome
      rw [hstranded.ready_eq, hnone]
      rfl
    · intro t htrack
      rw [show p'.track? = some t from htrack] at hnone
      cases hnone

private theorem settled_poll {p : Player} (h : Settled p) : Settled (p.apply .poll) := by
  rw [apply_poll]
  cases htrack : p.track? with
  | none =>
    rw [playOn_of_track?_eq_none htrack]
    exact h
  | some t =>
    have hready : p.clock.ready = true := by rw [h.ready_eq, htrack]; rfl
    have hroom := h.capacity_pos t htrack
    rcases playOn_cases htrack with
      ⟨stream, done, hplay, hrefill, -⟩ | ⟨wait, choice?, p', hplay, -, -, hready', hstayed⟩ |
      ⟨e, p', hplay, -, hstayed⟩
    · rw [hplay]
      have hsteady := CommandStream.steady_refill t.stream
      rw [hrefill] at hsteady
      have hsteady : stream.capacity = t.stream.capacity := hsteady
      refine ⟨hready, nofun, ?_⟩
      intro t' htrack'
      cases htrack'
      show 0 < stream.capacity
      omega
    · rw [hplay]
      cases choice? with
      | none =>
        obtain ⟨t', htrack', -⟩ := hstayed.track
        exact ⟨by rw [hready' hready, htrack']; rfl, hstayed.wait_eq, hstayed.capacity_pos hroom⟩
      | some choice => exact settled_selectTrack hstayed.wait_eq (hstayed.capacity_pos hroom) choice
    · rw [hplay]
      exact settled_selectTrack hstayed.wait_eq (hstayed.capacity_pos hroom) .next

theorem settled_apply {p : Player} (h : Settled p) (op : Operation) : Settled (p.apply op) := by
  cases op with
  | poll => exact settled_poll h
  | tick =>
    refine ⟨(SampleClock.ready_tick p.clock).trans h.ready_eq, ?_, h.capacity_pos⟩
    intro hnone
    -- nothing counts without a wait
    have hstill : p.clock.tick = p.clock := by simp [SampleClock.tick, SampleClock.moves, h.wait_eq hnone]
    show p.clock.tick.wait = 0
    rw [hstill, h.wait_eq hnone]
  | select choice => exact settled_selectTrack h.wait_eq h.capacity_pos choice
  | setMode mode => exact ⟨h.ready_eq, h.wait_eq, h.capacity_pos⟩
  | observe => exact ⟨h.ready_eq, h.wait_eq, h.capacity_pos⟩

theorem settled_run {p : Player} (h : Settled p) (ops : List Operation) : Settled (p.run ops) :=
  run_keeps settled_apply h ops

theorem leftBy_start (library : Library) (config : PlayerConfig) (words : RandomWords) :
    leftBy (start library config words) = leftBy (selectTrack .first { library, config, selector := { words } }) := by
  unfold start
  cases selectTrack .first { library, config, selector := { words } } <;> rfl

theorem settled_start (library : Library) (config : PlayerConfig) (words : RandomWords) :
    Settled (leftBy (start library config words)) := by
  have hsilent : ({ library, config, selector := { words } } : Player).track? = none := rfl
  rw [leftBy_start]
  exact settled_selectTrack (fun _ => rfl) (fun t htrack => by rw [hsilent] at htrack; cases htrack) .first

/-- A player that has started has just loaded a track, and no sample is left to wait. -/
theorem arrived_of_start {library : Library} {config : PlayerConfig} {words : RandomWords} {p : Player}
    (h : start library config words = .ok () p) :
    ∃ index, Arrived index { library, config, selector := { words } } p := by
  unfold start at h
  rcases selectTrack_cases .first { library, config, selector := { words } } with
    ⟨e, hselect⟩ | ⟨index, p', hselect, harrived⟩ | ⟨e, p', hselect, -⟩
  · rw [hselect] at h
    cases h
  · rw [hselect] at h
    cases h
    exact ⟨index, harrived⟩
  · rw [hselect] at h
    cases h

theorem settled_of_start {library : Library} {config : PlayerConfig} {words : RandomWords} {p : Player}
    (h : start library config words = .ok () p) : Settled p :=
  let ⟨_, harrived⟩ := arrived_of_start h
  settled_of_arrived harrived

end Player

end VgmPlayback
