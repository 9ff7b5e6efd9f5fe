import VgmPlayback.Proofs.PlayerRuns

/-!
# When the clock stalls

The clock counts only while the stream has data, and a wait on a stream that has ended is not waited out: the
player steps into the end instead.  Whether a stream has ended is computed from the announced size, though, and a
source may end before it (`CommandStream.EndsEarly`).  So after a turn spent waiting the next tick counts exactly
if the source has not ended early (`Player.moves_iff_of_poll`), and if the source goes on answering that it has
ended, the player is stalled for good (`Player.run_eq_self_of_stalled`).
-/

namespace VgmPlayback

namespace CommandStream

/-- Nothing is read ahead, and the source ends although by its announced size it has bytes left. -/
def EndsEarly (s : CommandStream) : Prop :=
  s.pending.isEmpty = true ∧ 0 < s.source.remaining ∧ ∃ source, Source.read s.source = .ok none source

private theorem not_idle_of_isEmpty {s : CommandStream} (hroom : 0 < s.capacity) (hempty : s.pending.isEmpty = true)
    (hleft : 0 < s.source.remaining) : ¬ (s.isFull || decide (s.source.remaining ≤ s.pending.size)) = true := by
  have hsize := s.pending.isEmpty_iff_size.1 hempty
  simp only [isFull, Bool.or_eq_true, decide_eq_true_eq, not_or]
  omega

/-- A refill leaves a stream that has not ended empty exactly if the source ends early. -/
theorem isEmpty_iff_of_refill {s s' : CommandStream} {done : Bool} (hroom : 0 < s.capacity)
    (h : refill s = .ok done s') (hleft : ¬ (s'.pending.isEmpty = true ∧ s'.source.remaining = 0)) :
    s'.pending.isEmpty = true ↔ s.EndsEarly := by
  unfold refill at h
  constructor
  · intro hempty
    by_cases hidle : (s.isFull || decide (s.source.remaining ≤ s.pending.size)) = true
    · rw [if_pos hidle] at h
      cases h
      have hremaining : 0 < s.source.remaining := Nat.pos_of_ne_zero fun hzero => hleft ⟨hempty, hzero⟩
      exact absurd hidle (not_idle_of_isEmpty hroom hempty hremaining)
    · rw [if_neg hidle] at h
      have hremaining : 0 < s.source.remaining := by
        simp only [Bool.or_eq_true, decide_eq_true_eq, not_or] at hidle
        omega
      cases hread : Source.read s.source with
      | error e source =>
        rw [hread] at h
        cases h
      | ok b? source =>
        rw [hread] at h
        cases b? with
        | none =>
          cases h
          exact ⟨hempty, hremaining, source, hread⟩
        | some b =>
          -- the byte that was read is pending
          cases h
          simp at hempty
  · rintro ⟨hempty, hremaining, source, hread⟩
    rw [if_neg (not_idle_of_isEmpty hroom hempty hremaining), hread] at h
    cases h
    exact hempty

end CommandStream

namespace Player

/-- A poll that succeeds without a command and without loading a track was spent waiting. -/
private theorem waits_of_poll {p p' : Player} {t : Playthrough} (htrack : p.track? = some t)
    (hpoll : p.poll = .ok () p') (hidle : p.executes? = none) (hsame : p'.loaded = p.loaded) :
    ∃ stream done, t.stream.refill = .ok done stream ∧ ({ t with stream } : Playthrough).isExhausted = false ∧
      0 < p.clock.wait ∧ p' = { p with
        track? := some { t with stream }
        clock := ({ t with stream } : Playthrough).publish p.clock } := by
  rw [poll_eq] at hpoll
  unfold executes? at hidle
  rcases playOn_cases htrack with
    ⟨stream, done, hplay, hrefill, hwait, hleft⟩ | ⟨wait, choice?, p₁, hplay, -⟩ | ⟨e, p₁, hplay, -, hstayed⟩
  · rw [hplay] at hpoll
    cases hpoll
    exact ⟨stream, done, hrefill, hleft, hwait, rfl⟩
  · rw [hplay] at hidle
    cases hidle
  · -- a track that breaks off is left, and a switch that succeeds loads another
    rw [hplay] at hpoll
    simp only [switch] at hpoll
    rcases selectTrack_cases .next p₁ with
      ⟨e', hselect⟩ | ⟨index, p₂, hselect, harrived⟩ | ⟨e', p₂, hselect, -⟩
    · rw [hselect] at hpoll
      cases hpoll
    · rw [hselect] at hpoll
      cases hpoll
      have hlength := congrArg List.length (harrived.loaded_eq.symm.trans hsame)
      rw [hstayed.loaded_eq] at hlength
      simp at hlength
    · rw [hselect] at hpoll
      cases hpoll

/-- Wherever a player that has started may be: after a poll that succeeds without a command and without loading a
track, the next tick counts exactly if the source did not end early. -/
theorem moves_iff_of_poll {library : Library} {config : PlayerConfig} {words : RandomWords} {p₀ p' : Player}
    {t : Playthrough} (hstart : start library config words = .ok () p₀) (ops : List Operation)
    (htrack : (p₀.run ops).track? = some t) (hpoll : (p₀.run ops).poll = .ok () p')
    (hidle : (p₀.run ops).executes? = none) (hsame : p'.loaded = (p₀.run ops).loaded) :
    p'.clock.moves = true ↔ ¬ t.stream.EndsEarly := by
  have hsettled := settled_run (settled_of_start hstart) ops
  -- the clock is ready and has a wait, so it counts exactly if the queue has a byte
  have hready : (p₀.run ops).clock.ready = true := by rw [hsettled.ready_eq, htrack]; rfl
  obtain ⟨stream, done, hrefill, hleft, hwait, rfl⟩ := waits_of_poll htrack hpoll hidle hsame
  have hleft : ¬ (stream.pending.isEmpty = true ∧ stream.source.remaining = 0) := by
    rw [← Bool.not_eq_true, Playthrough.isExhausted, Bool.and_eq_true, beq_iff_eq] at hleft
    exact hleft
  rw [← CommandStream.isEmpty_iff_of_refill (hsettled.capacity_pos t htrack) hrefill hleft]
  simp only [SampleClock.moves, Playthrough.publish, hready, hwait, decide_true, Bool.and_true, Bool.true_and,
    Bool.not_eq_true', Bool.not_eq_true]

private def cutImage : List UInt8 := [0x56, 0x67, 0x6D, 0x20] ++ List.replicate 0x3C 0 ++ [0x61, 0x0A, 0x00]

/-- A track whose source announces four bytes more than it has: it asks for a wait and ends there. -/
private def cutTrack : Library where
  tracks := #[{
    name? := some "cut"
    contents := fun _ => Source.ofMedium { data := cutImage.toArray, phantom := 4 } }]

private def cutPlayer : Player := (leftBy (start cutTrack {} [])).run [.poll]

theorem moves_iff_of_poll_cutTrack : ∃ p₀ p' t, start cutTrack {} [] = .ok () p₀ ∧
    (p₀.run [.poll]).track? = some t ∧ (p₀.run [.poll]).poll = .ok () p' ∧ p'.clock.wait = 10 ∧
    p'.clock.moves = false ∧ t.stream.EndsEarly := by
  have hstart : start cutTrack {} [] = .ok () (leftBy (start cutTrack {} [])) :=
    eq_ok_of_succeeds (by decide +kernel)
  have hpoll : cutPlayer.poll = .ok () (leftBy cutPlayer.poll) :=
    eq_ok_of_succeeds (by decide +kernel)
  have hsome : cutPlayer.track?.isSome = true := by decide +kernel
  obtain ⟨t, htrack⟩ := Option.isSome_iff_exists.1 hsome
  have hmoves : (leftBy cutPlayer.poll).clock.moves = false := by decide +kernel
  have hiff := moves_iff_of_poll hstart [.poll] htrack hpoll (by decide +kernel) (by decide +kernel)
  refine ⟨_, _, t, hstart, htrack, hpoll, by decide +kernel, hmoves, ?_⟩
  apply Classical.byContradiction
  intro hnot
  rw [hiff.2 hnot] at hmoves
  cases hmoves

/-! ### Stalled players -/

/-- A wait is pending on a stream whose source ends early and will do so again. -/
structure Stalled (p : Player) : Prop where
  wait_pos : 0 < p.clock.wait
  hasData_eq : p.clock.hasData = false
  track : ∃ t, p.track? = some t ∧ t.stream.pending.isEmpty = true ∧ 0 < t.stream.source.remaining ∧
    Source.read t.stream.source = .ok none t.stream.source

private theorem refill_of_read {s : CommandStream} (h : Source.read s.source = .ok none s.source) :
    s.refill = .ok true s := by
  unfold CommandStream.refill
  split
  · rfl
  · rw [h]

theorem stalled_of_poll {p p' : Player} {t : Playthrough} (htrack : p.track? = some t)
    (hpoll : p.poll = .ok () p') (hidle : p.executes? = none) (hsame : p'.loaded = p.loaded)
    (hearly : t.stream.EndsEarly) (hread : Source.read t.stream.source = .ok none t.stream.source) : Stalled p' := by
  obtain ⟨hempty, hremaining, -⟩ := hearly
  obtain ⟨stream, done, hrefill, -, hwait, hp'⟩ := waits_of_poll htrack hpoll hidle hsame
  rw [refill_of_read hread] at hrefill
  cases hrefill
  subst hp'
  exact ⟨hwait, by simp only [Playthrough.publish, hempty, Bool.not_true], t, rfl, hempty, hremaining, hread⟩

private theorem playOn_of_stalled {p : Player} (h : Stalled p) : p.playOn = (none, none, p) := by
  obtain ⟨t, htrack, hempty, hremaining, hread⟩ := h.track
  have hpublish : t.publish p.clock = p.clock := by
    simp only [Playthrough.publish, hempty, Bool.not_true, ← h.hasData_eq]
  have hleft : ¬ t.isExhausted = true := by
    simp only [Playthrough.isExhausted, hempty, Bool.true_and, beq_iff_eq]
    omega
  have hturn : turn t p.clock = (none, { result := .ok 0, track := t, clock := p.clock }) := by
    simp only [turn, Playthrough.refill, refill_of_read hread, hpublish]
    exact if_pos ⟨h.wait_pos, hleft⟩
  simp only [playOn, htrack, hturn, absorb_waited]
  rw [← htrack]

theorem run_eq_self_of_stalled {p : Player} (h : Stalled p) {ops : List Operation}
    (hops : ∀ op ∈ ops, op = .poll ∨ op = .tick) : p.run ops = p := by
  induction ops with
  | nil => rfl
  | cons op ops ih =>
    have hop : p.apply op = p := by
      rcases hops op (List.mem_cons_self ..) with rfl | rfl
      · rw [apply_poll, playOn_of_stalled h]
      · show { p with clock := p.clock.tick } = p
        rw [SampleClock.tick, if_neg (by simp [SampleClock.moves, h.hasData_eq])]
    rw [run_cons, hop]
    exact ih fun op hmem => hops op (List.mem_cons_of_mem _ hmem)

end Player

end VgmPlayback
