import VgmPlayback.Proofs.Switching

/-!
# Unknown opcodes

A step that meets a byte with which no command begins notes it on the track, with the position at which it stood, and
goes on.  On the track there is room for one such note only; the player takes it off in the same turn, and calls the
observer if there is one.

So between the operations of a run no note is pending (`Player.Clear`), and none is lost under a later one: from its
installation on the observer is called for the unknown opcodes that the polls execute, for each once and in order
(`Player.met`), whatever else a poll comes to.  That is all it changes: what a run answers and leaves is the same with
an observer and without, what the observer is told aside (`Player.transcript_unobserved`).
-/

namespace VgmPlayback

theorem Opcode.eq_of_ofByte_eq_unknown {byte byte' : UInt8} (h : ofByte byte = .unknown byte') : byte' = byte := by
  have hother : ∀ {P : Prop} [Decidable P] {op rest : Opcode}, op ≠ .unknown byte' →
      (if P then op else rest) = .unknown byte' → rest = .unknown byte' := by
    intro P _ op rest hne heq
    by_cases hP : P
    · rw [if_pos hP] at heq
      exact absurd heq hne
    · rwa [if_neg hP] at heq
  unfold ofByte at h
  dsimp only at h
  -- the classes of opcodes but the last one
  iterate 10 replace h := hother (by nofun) h
  cases hforeign : foreignOperands? byte with
  | some operands =>
    rw [hforeign] at h
    cases h
  | none =>
    rw [hforeign] at h
    cases h
    rfl

namespace CommandStream

/-- What the action returns is no unknown opcode. -/
private def Knows (act : EStateM FormatError CommandStream Command) : Prop :=
  ∀ s byte s', act s ≠ .ok (.unknown byte) s'

private theorem knows_pure {c : Command} (h : ∀ byte, c ≠ .unknown byte) : Knows (pure c) := by
  intro s byte s' heq
  cases heq
  exact h byte rfl

private theorem Knows.bind {α : Type} (act : EStateM FormatError CommandStream α)
    {next : α → EStateM FormatError CommandStream Command} (h : ∀ a, Knows (next a)) : Knows (act >>= next) := by
  intro s byte s' heq
  have heq : EStateM.bind act next s = .ok (.unknown byte) s' := heq
  unfold EStateM.bind at heq
  cases hact : act s with
  | ok a s₁ =>
    rw [hact] at heq
    exact h a s₁ byte s' heq
  | error e s₁ =>
    rw [hact] at heq
    cases heq

theorem fetch_of_consume {s s' : CommandStream} {byte : UInt8} (h : s.consume = .ok byte s')
    (hop : Opcode.ofByte byte = .unknown byte) : s.fetch = .ok (.unknown byte) s' := by
  simp only [fetch, bind, EStateM.bind, h, hop]
  rfl

/-- An unknown opcode is fetched by consuming it. -/
theorem consume_of_fetch {s s' : CommandStream} {byte : UInt8} (h : s.fetch = .ok (.unknown byte) s') :
    s.consume = .ok byte s' ∧ Opcode.ofByte byte = .unknown byte := by
  have h : EStateM.bind consume _ s = .ok (Command.unknown byte) s' := h
  unfold EStateM.bind at h
  cases hconsume : s.consume with
  | error e s₁ =>
    rw [hconsume] at h
    cases h
  | ok b s₁ =>
    rw [hconsume] at h
    dsimp only at h
    cases hop : Opcode.ofByte b with
    | unknown b' =>
      obtain rfl := Opcode.eq_of_ofByte_eq_unknown hop
      rw [hop] at h
      cases h
      exact ⟨rfl, hop⟩
    | ym2151Write =>
      rw [hop] at h
      exact absurd h (Knows.bind _ (fun _ => .bind _ fun _ => knows_pure (by nofun)) _ _ _)
    | waitSamples =>
      rw [hop] at h
      exact absurd h (Knows.bind _ (fun _ => knows_pure (by nofun)) _ _ _)
    | dataBlock =>
      rw [hop] at h
      exact absurd h (Knows.bind _ (fun _ => .bind _ fun _ => .bind _ fun _ => knows_pure (by nofun)) _ _ _)
    | _ =>
      rw [hop] at h
      exact absurd h (knows_pure (by nofun) _ _ _)

end CommandStream

namespace Playthrough

/-- The unknown opcode that the next step executes, if the next byte is one, with the counter of the loop before it is
consumed. -/
def unknownNext? (t : Playthrough) : Option UnknownOpcode :=
  match t.stream.consume with
  | .ok opcode _ => if Opcode.ofByte opcode = .unknown opcode then some { opcode, position := t.stream.cmdPos } else none
  | .error .. => none

theorem unknownNext?_eq_some {t : Playthrough} {e : UnknownOpcode} (h : t.unknownNext? = some e) :
    e.position = t.stream.cmdPos ∧ Opcode.ofByte e.opcode = .unknown e.opcode ∧
      ∃ stream, t.stream.consume = .ok e.opcode stream := by
  unfold unknownNext? at h
  cases hconsume : t.stream.consume with
  | error e' stream =>
    rw [hconsume] at h
    cases h
  | ok opcode stream =>
    rw [hconsume] at h
    dsimp only at h
    split at h
    · rename_i hop
      cases h
      exact ⟨rfl, hop, stream, rfl⟩
    · cases h

/-- A step executes an unknown opcode and notes it, or it meets none, and an earlier note stays. -/
theorem unknown_step (t : Playthrough) (clock : SampleClock) :
    (∃ e, t.unknownNext? = some e ∧ (t.step clock).result = .ok 0 ∧ (t.step clock).track.lastUnknown? = some e) ∨
    (t.unknownNext? = none ∧ (t.step clock).track.lastUnknown? = t.lastUnknown?) := by
  cases hnext : t.unknownNext? with
  | some e =>
    obtain ⟨hposition, hop, stream, hconsume⟩ := unknownNext?_eq_some hnext
    refine .inl ⟨e, rfl, ?_⟩
    simp only [step, CommandStream.fetch_of_consume hconsume hop]
    exact ⟨rfl, by rw [← hposition]; rfl⟩
  | none =>
    refine .inr ⟨rfl, ?_⟩
    unfold step
    cases hfetch : t.stream.fetch with
    | error e stream => rfl
    | ok c stream =>
      cases c with
      | skip operands =>
        obtain ⟨stream', heq⟩ := track_passOver { t with stream } clock operands.toUInt32 []
        have hkept := congrArg lastUnknown? heq
        exact hkept
      | block kind size =>
        obtain ⟨stream', heq⟩ := track_passOver { t with stream } clock size [.blockSkipped kind size]
        have hkept := congrArg lastUnknown? heq
        exact hkept
      | endOfData =>
        obtain ⟨stream', loopCount, heq⟩ := track_restart { t with stream } clock
        have hkept := congrArg lastUnknown? heq
        exact hkept
      | unknown byte =>
        obtain ⟨hconsume, hop⟩ := CommandStream.consume_of_fetch hfetch
        rw [unknownNext?, hconsume] at hnext
        simp [hop] at hnext
      | _ => rfl

end Playthrough

namespace Player

variable {p : Player} {t : Playthrough}

/-- The unknown opcode that the next turn executes, if it executes a command and this is one. -/
def unknownNext? (p : Player) : Option UnknownOpcode :=
  p.track?.bind fun t =>
    if (turn t p.clock).1.any Except.toBool then (t.refill p.clock).2.1.unknownNext? else none

def meets (p : Player) : Operation → List UnknownOpcode
  | .poll => p.unknownNext?.toList
  | _ => []

/-- The unknown opcodes that the polls of a run execute, in order. -/
def met (p : Player) : List Operation → List UnknownOpcode
  | [] => []
  | op :: ops => p.meets op ++ (p.apply op).met ops

/-- No note of an unknown opcode is pending. -/
def Clear (p : Player) : Prop := ∀ t, p.track? = some t → t.lastUnknown? = none

/-- The player with another observer, or with none, and with other calls of it in the past. -/
def withObserver (p : Player) (observing : Bool) (observed : Array UnknownOpcode) : Player :=
  { p with observing, observed }

/-- The player as if there had never been an observer. -/
def unobserved (p : Player) : Player := p.withObserver false #[]

def Entry.unobserved (e : Entry) : Entry := { e with player := e.player.unobserved }

/-! ### Loading -/

theorem clear_load (index : Nat) (p : Player) : Clear (leftBy (load index p)) := by
  intro t htrack
  cases hload : p.loadable? index with
  | some t' =>
    obtain ⟨hunplayed, clock, notices, -, heq⟩ := load_of_loadable?_eq_some hload
    rw [heq] at htrack
    cases htrack
    exact hunplayed.lastUnknown?_eq
  | none =>
    obtain ⟨e, clock, notices, -, -, heq⟩ := load_of_loadable?_eq_none hload
    rw [heq] at htrack
    cases htrack

theorem clear_selectTrack (h : p.Clear) (choice : Choice) : Clear (leftBy (selectTrack choice p)) :=
  selectTrack_keeps (P := Clear) (fun _ index => clear_load index _) (fun h _ _ _ => h) h choice

/-- The result with this done to the player in it. -/
def onPlayer {α : Type} (f : Player → Player) :
    EStateM.Result PlaybackError Player α → EStateM.Result PlaybackError Player α
  | .ok a p => .ok a (f p)
  | .error e p => .error e (f p)

section

variable (observing : Bool) (observed : Array UnknownOpcode)

theorem load_withObserver (index : Nat) (p : Player) : load index (p.withObserver observing observed) =
    onPlayer (withObserver · observing observed) (load index p) := by
  unfold load
  dsimp only [withObserver]
  rcases p.library.openTrack index with ⟨e | source, library⟩
  · rfl
  · dsimp only
    rcases prepare p.config source { p.clock with wait := 0 } with ⟨e | t, clock, notices⟩ <;> rfl

theorem loadPlayable_withObserver (attempts index : Nat) (p : Player) :
    loadPlayable attempts index (p.withObserver observing observed) =
      onPlayer (withObserver · observing observed) (loadPlayable attempts index p) := by
  induction attempts generalizing index p with
  | zero => rfl
  | succ attempts ih =>
    unfold loadPlayable
    rw [load_withObserver]
    cases load index p with
    | ok _ p' => rfl
    | error e p' =>
      dsimp only [onPlayer, withObserver, report]
      cases Selector.select p'.library.names .next p'.selector with
      | error e' selector => rfl
      | ok next selector =>
        exact ih next { p'.report [.trackSkipped (p'.library.name? index) e] with selector }

/-- A switch of tracks does not depend on the observer, and leaves it as it is. -/
theorem selectTrack_withObserver (choice : Choice) (p : Player) :
    selectTrack choice (p.withObserver observing observed) =
      onPlayer (withObserver · observing observed) (selectTrack choice p) := by
  unfold selectTrack
  dsimp only [withObserver]
  cases Selector.select p.library.names choice p.selector with
  | error e selector => rfl
  | ok index selector =>
    exact loadPlayable_withObserver _ _ _ _ { p with selector, clock := { p.clock with ready := false } }

end

theorem leftBy_onPlayer {α : Type} (f : Player → Player) (r : EStateM.Result PlaybackError Player α) :
    leftBy (onPlayer f r) = f (leftBy r) := by
  cases r <;> rfl

theorem outcome_onPlayer {α : Type} (f : Player → Player) (r : EStateM.Result PlaybackError Player α) :
    outcome (onPlayer f r) = outcome r := by
  cases r <;> rfl

theorem observer_selectTrack (choice : Choice) (p : Player) :
    (leftBy (selectTrack choice p)).observing = p.observing ∧ (leftBy (selectTrack choice p)).observed = p.observed := by
  have hself := selectTrack_withObserver p.observing p.observed choice p
  rw [show p.withObserver p.observing p.observed = p from rfl] at hself
  rw [hself, leftBy_onPlayer]
  exact ⟨rfl, rfl⟩

/-! ### Turns -/

/-- A turn notes the unknown opcode that it executes. -/
theorem lastUnknown?_turn (h : t.lastUnknown? = none) (clock : SampleClock) :
    (turn t clock).2.track.lastUnknown? =
      if (turn t clock).1.any Except.toBool then (t.refill clock).2.1.unknownNext? else none := by
  unfold turn
  rcases t.refill_cases clock with ⟨done, stream, hrefill, -⟩ | ⟨e, stream, hrefill, -⟩
  · simp only [hrefill]
    split
    · exact h
    · rcases Playthrough.unknown_step { t with stream } (({ t with stream } : Playthrough).publish clock) with
        ⟨e, hnext, hresult, hnote⟩ | ⟨hnext, hnote⟩
      · rw [hnext, hresult, hnote]
        rfl
      · rw [hnext, hnote, ite_self]
        exact h
  · simp only [hrefill]
    exact h

/-- A turn leaves no note behind: if there is an observer, it has been called. -/
theorem observed_playOn (h : p.Clear) : p.playOn.2.2.Clear ∧ p.playOn.2.2.observing = p.observing ∧
    p.playOn.2.2.observed.toList = p.observed.toList ++ if p.observing then p.meets .poll else [] := by
  cases htrack : p.track? with
  | none =>
    rw [playOn_of_track?_eq_none htrack]
    exact ⟨h, rfl, by simp [meets, unknownNext?, htrack]⟩
  | some t =>
    have hnote := lastUnknown?_turn (h t htrack) p.clock
    have hmeets : p.unknownNext? =
        if (turn t p.clock).1.any Except.toBool then (t.refill p.clock).2.1.unknownNext? else none := by
      rw [unknownNext?, htrack]
      rfl
    rw [meets, hmeets, ← hnote]
    simp only [playOn, htrack]
    rcases hturn : turn t p.clock with ⟨_ | ⟨e | wait⟩, s⟩
    · rw [hturn] at hnote
      have hnone : s.track.lastUnknown? = none := hnote
      refine ⟨?_, rfl, by simp [hnone, absorb, send, report]⟩
      intro t' htrack'
      cases htrack'
      exact hnone
    · rw [hturn] at hnote
      have hnone : s.track.lastUnknown? = none := hnote
      refine ⟨?_, rfl, by simp [hnone, absorb, send, report]⟩
      intro t' htrack'
      cases htrack'
      exact hnone
    · have hobserve := @observe_eq { p.absorb s with clock := (p.absorb s).clock.addWait wait } s.track rfl
      simp only [afterCommand, hobserve]
      refine ⟨?_, rfl, ?_⟩
      · intro t' htrack'
        cases htrack'
        rfl
      · show (if p.observing then p.observed ++ s.track.lastUnknown?.toArray else p.observed).toList = _
        cases p.observing <;> simp

/-- A turn does not depend on the observer. -/
theorem playOn_unobserved (p : Player) : p.unobserved.playOn = (p.playOn.1, p.playOn.2.1, p.playOn.2.2.unobserved) := by
  have htrack' : p.unobserved.track? = p.track? := rfl
  cases htrack : p.track? with
  | none => simp only [playOn, htrack', htrack]
  | some t =>
    simp only [playOn, htrack', htrack]
    rw [show p.unobserved.clock = p.clock from rfl]
    rcases turn t p.clock with ⟨_ | ⟨e | wait⟩, s⟩
    · rfl
    · rfl
    · have hafter : p.unobserved.afterCommand s wait = (p.afterCommand s wait).unobserved := by
        have hobserve := @observe_eq { p.absorb s with clock := (p.absorb s).clock.addWait wait } s.track rfl
        have hobserve' := @observe_eq
          { p.unobserved.absorb s with clock := (p.unobserved.absorb s).clock.addWait wait } s.track rfl
        simp only [afterCommand, hobserve, hobserve']
        rfl
      dsimp only
      rw [hafter]
      rfl

theorem observed_poll (h : p.Clear) : (p.apply .poll).Clear ∧ (p.apply .poll).observing = p.observing ∧
    (p.apply .poll).observed.toList = p.observed.toList ++ if p.observing then p.meets .poll else [] := by
  have hturn := observed_playOn h
  rw [apply_poll]
  cases p.playOn.2.1 with
  | none => exact hturn
  | some choice =>
    -- the observer has been called before the switch
    obtain ⟨hclear, hobserving, hobserved⟩ := hturn
    obtain ⟨hobserving', hobserved'⟩ := observer_selectTrack choice p.playOn.2.2
    exact ⟨clear_selectTrack hclear choice, hobserving'.trans hobserving,
      (congrArg Array.toList hobserved').trans hobserved⟩

theorem observed_apply (h : p.Clear) (op : Operation) : (p.apply op).Clear ∧
    (op ≠ .observe → (p.apply op).observing = p.observing) ∧
    (p.apply op).observed.toList = p.observed.toList ++ if p.observing then p.meets op else [] := by
  cases op with
  | poll =>
    obtain ⟨hclear, hobserving, hobserved⟩ := observed_poll h
    exact ⟨hclear, fun _ => hobserving, hobserved⟩
  | select choice =>
    obtain ⟨hobserving, hobserved⟩ := observer_selectTrack choice p
    refine ⟨clear_selectTrack h choice, fun _ => hobserving, ?_⟩
    show (leftBy (selectTrack choice p)).observed.toList = _
    rw [hobserved]
    simp [meets]
  | observe => exact ⟨h, fun hne => absurd rfl hne, by simp [meets, apply, observeUnknown]⟩
  | tick => exact ⟨h, fun _ => rfl, by simp [meets, apply]⟩
  | setMode mode => exact ⟨h, fun _ => rfl, by simp [meets, apply, setMode]⟩

/-! ### Runs -/

/-- While there is an observer it is called for all unknown opcodes that are executed. -/
theorem observed_run (h : p.Clear) (hobserving : p.observing = true) (ops : List Operation) :
    (p.run ops).observed.toList = p.observed.toList ++ p.met ops := by
  induction ops generalizing p with
  | nil => simp [run, met]
  | cons op ops ih =>
    obtain ⟨hclear, hkept, hobserved⟩ := observed_apply h op
    have hobserving' : (p.apply op).observing = true := by
      by_cases hop : op = .observe
      · rw [hop]
        rfl
      · rw [hkept hop, hobserving]
    rw [run_cons, ih hclear hobserving', hobserved, if_pos hobserving, met, List.append_assoc]

theorem observed_run_of_notMem (h : p.Clear) (hobserving : p.observing = false) {ops : List Operation}
    (hops : .observe ∉ ops) : (p.run ops).observed = p.observed := by
  induction ops generalizing p with
  | nil => rfl
  | cons op ops ih =>
    obtain ⟨hclear, hkept, hobserved⟩ := observed_apply h op
    rw [List.mem_cons, not_or] at hops
    obtain ⟨hne, hops⟩ := hops
    rw [hobserving, if_neg Bool.false_ne_true, List.append_nil] at hobserved
    rw [run_cons, ih hclear ((hkept (Ne.symm hne)).trans hobserving) hops]
    exact Array.toList_inj.1 hobserved

theorem poll_unobserved (p : Player) : p.unobserved.poll = onPlayer unobserved p.poll := by
  rw [poll_eq, poll_eq, playOn_unobserved]
  cases p.playOn.2.1 with
  | none => rfl
  | some choice =>
    have hswitch := selectTrack_withObserver false #[] choice p.playOn.2.2
    simp only [switch, unobserved, hswitch]
    cases selectTrack choice p.playOn.2.2 <;> rfl

/-- Apart from its installation, nothing that is done to the player depends on the observer. -/
theorem apply_unobserved (p : Player) {op : Operation} (hop : op ≠ .observe) :
    p.unobserved.apply op = (p.apply op).unobserved ∧ p.unobserved.answer op = p.answer op := by
  cases op with
  | poll =>
    rw [apply, answer, poll_unobserved, leftBy_onPlayer, outcome_onPlayer]
    exact ⟨rfl, rfl⟩
  | select choice =>
    have hswitch := selectTrack_withObserver false #[] choice p
    rw [apply, answer, unobserved, hswitch, leftBy_onPlayer, outcome_onPlayer]
    exact ⟨rfl, rfl⟩
  | observe => exact absurd rfl hop
  | _ => exact ⟨rfl, rfl⟩

/-- Without the calls of an observer and without its installation, a run is the run without it. -/
theorem transcript_unobserved (p : Player) (ops : List Operation) :
    ((p.transcript ops).filter (·.operation ≠ .observe)).map Entry.unobserved =
      p.unobserved.transcript (ops.filter (· ≠ .observe)) := by
  induction ops generalizing p with
  | nil => rfl
  | cons op ops ih =>
    by_cases hop : op = .observe
    · subst hop
      simp only [transcript, List.filter_cons]
      exact ih (p.apply .observe)
    · obtain ⟨happly, hanswer⟩ := apply_unobserved p hop
      rw [transcript, List.filter_cons_of_pos (by simpa using hop), List.map_cons, ih,
        List.filter_cons_of_pos (by simpa using hop), transcript, happly, hanswer]
      rfl

theorem clear_start (library : Library) (config : PlayerConfig) (words : RandomWords) :
    Clear (leftBy (start library config words)) := by
  rw [leftBy_start]
  refine clear_selectTrack ?_ .first
  intro t htrack
  cases htrack

theorem observer_start (library : Library) (config : PlayerConfig) (words : RandomWords) :
    (leftBy (start library config words)).observing = false ∧
      (leftBy (start library config words)).observed = #[] := by
  rw [leftBy_start]
  exact observer_selectTrack .first { library, config, selector := { words } }

theorem unobserved_start (library : Library) (config : PlayerConfig) (words : RandomWords) :
    (leftBy (start library config words)).unobserved = leftBy (start library config words) := by
  obtain ⟨hobserving, hobserved⟩ := observer_start library config words
  rw [unobserved, withObserver, ← hobserving, ← hobserved]

/-- In the runs of a player no note of an unknown opcode is ever pending between two operations.  Until an observer is
installed none is called; from its installation on it is called for the unknown opcodes that the polls execute, for
each once and in order, with the opcode and the position before it.  And a run with an observer is the run without it:
all other operations are answered alike, and leave the same player but for the observer. -/
theorem unknowns_observed {library : Library} {config : PlayerConfig} {words : RandomWords}
    (h : leftBy (start library config words) = p) :
    (∀ ops, (p.run ops).Clear) ∧
    (∀ ops, .observe ∉ ops → (p.run ops).observed = #[]) ∧
    (∀ before after, (p.run (before ++ .observe :: after)).observed.toList =
      (p.run before).observed.toList ++ ((p.run before).apply .observe).met after) ∧
    ∀ ops, ((p.transcript ops).filter (·.operation ≠ .observe)).map Entry.unobserved =
      p.transcript (ops.filter (· ≠ .observe)) := by
  have hclear : ∀ ops, (p.run ops).Clear := by
    rw [← h]
    exact run_keeps (P := Clear) (fun hp op => (observed_apply hp op).1) (clear_start library config words)
  obtain ⟨hobserving, hobserved⟩ := observer_start library config words
  rw [h] at hobserving hobserved
  refine ⟨hclear, ?_, ?_, ?_⟩
  · intro ops hops
    exact (observed_run_of_notMem (hclear []) hobserving hops).trans hobserved
  · intro before after
    have hcalls := @observed_run ((p.run before).apply .observe) (hclear before) rfl after
    rw [run_append, run_cons, hcalls]
    rfl
  · intro ops
    have hsilent : p.unobserved = p := by
      rw [← h]
      exact unobserved_start library config words
    rw [transcript_unobserved, hsilent]

/-- Two tracks of unknown opcodes, the first with two and a write in between. -/
private def strangeTunes : Library where
  tracks := #[.ofBytes "two" ([0x56, 0x67, 0x6D, 0x20] ++ List.replicate 0x3C 0 ++ [0x9F, 0x54, 0x08, 0x78, 0x00]),
    .ofBytes "one" ([0x56, 0x67, 0x6D, 0x20] ++ List.replicate 0x3C 0 ++ [0x69, 0x66])]

/-- The first track goes on until the play mode changes, and then the poll that meets its second unknown opcode leaves
it. -/
private def strangeRun : List Operation := [.poll, .poll, .setMode .inOrder, .poll, .poll]

theorem unknowns_observed_strangeTunes : ∃ p : Player,
    leftBy (start strangeTunes { maxLoops := 0, mode := .loop } []) = p ∧
    (p.run (.observe :: strangeRun)).loaded = [0, 1, 0] ∧ (p.run (.observe :: strangeRun)).Clear ∧
    (p.run (.observe :: strangeRun)).observed.toList = [⟨0x9F, 0⟩, ⟨0x00, 4⟩, ⟨0x69, 0⟩] ∧
    (p.run (.observe :: strangeRun)).observed.toList = (p.apply .observe).met strangeRun ∧
    (p.run strangeRun).observed = #[] ∧
    ((p.transcript (.observe :: strangeRun)).filter (·.operation ≠ .observe)).map Entry.unobserved =
      p.transcript strangeRun := by
  have hstart : leftBy (start strangeTunes { maxLoops := 0, mode := .loop } []) =
      leftBy (start strangeTunes { maxLoops := 0, mode := .loop } []) := rfl
  obtain ⟨hclear, hsilent, hcalls, htranscript⟩ := unknowns_observed hstart
  refine ⟨_, hstart, by decide +kernel, hclear _, by decide +kernel, ?_, hsilent _ (by decide), htranscript _⟩
  have hnone : (leftBy (start strangeTunes { maxLoops := 0, mode := .loop } [])).observed.toList = [] := by
    decide +kernel
  exact (hcalls [] strangeRun).trans (congrArg (· ++ _) hnone)

end Player

end VgmPlayback
