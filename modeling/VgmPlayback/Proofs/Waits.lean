import VgmPlayback.Proofs.PlayerRuns

/-!
# Waits are played out in full

The journal of a run tells what matters to the wait: the commands that were executed and the wait that each asked
for, the ticks that counted, and the ends of tracks (`Player.journal`).  After every run the wait of the clock is
what the last command on the current track asked for, less the ticks since, and no command is executed before it
is zero (`Player.waits_exact`).

One operation keeps the account (`balanced_beats`).  Its only case with an argument is a command: by `turn_cases`
it meets a wait of zero, so adding its own wait loses nothing.
-/

namespace VgmPlayback

/-- What a run does to the wait. -/
inductive Beat where
  /-- A command was executed and asked for a wait. -/
  | executed (wait : UInt16)
  | counted
  /-- The track was left, whether or not another one came in its place. -/
  | left
deriving DecidableEq, Repr

/-- The wait of the last command on the current track, and the ticks that have counted since. -/
structure Account where
  wait : UInt16 := 0
  counted : Nat := 0
deriving DecidableEq, Repr

namespace Account

def enter (a : Account) : Beat → Account
  | .executed wait => { wait }
  | .counted => { a with counted := a.counted + 1 }
  | .left => {}

/-- The account that a journal leads to. -/
def ofBeats (beats : List Beat) : Account := beats.foldl enter {}

private theorem foldl_enter_counted {beats : List Beat} (h : ∀ b ∈ beats, b = .counted) (a : Account) :
    beats.foldl enter a = { a with counted := a.counted + beats.length } := by
  induction beats generalizing a with
  | nil => rfl
  | cons b beats ih =>
    obtain rfl : b = .counted := h b (List.mem_cons_self ..)
    rw [List.foldl_cons, ih fun b hb => h b (List.mem_cons_of_mem _ hb)]
    simp only [enter, List.length_cons, Nat.add_assoc, Nat.add_comm 1]

end Account

namespace Player

/-! ### The journal of a run -/

/-- The end of the track of `p`, unless `p'` still has it: a track that stays is neither dropped nor followed by
the loading of another. -/
def departure (p p' : Player) : List Beat :=
  if p'.track?.isSome && p'.loaded.length == p.loaded.length then [] else [.left]

/-- What an operation does to the wait, in order. -/
def beats (p : Player) : Operation → List Beat
  | .poll => p.executes?.toList.map .executed ++ p.departure (p.apply .poll)
  | .tick => if p.clock.moves then [.counted] else []
  | .select choice => p.departure (p.apply (.select choice))
  | .setMode _ => []
  | .observe => []

def journal (p : Player) : List Operation → List Beat
  | [] => []
  | op :: ops => p.beats op ++ (p.apply op).journal ops

private theorem executed_notMem_departure (p p' : Player) (wait : UInt16) : .executed wait ∉ p.departure p' := by
  unfold departure
  split <;> simp

private theorem beats_of_executed {p : Player} {op : Operation} {before rest : List Beat} {wait : UInt16}
    (h : p.beats op = before ++ .executed wait :: rest) : before = [] ∧ p.executes? = some wait := by
  have hmem : .executed wait ∈ p.beats op := by rw [h]; simp
  cases op with
  | poll =>
    have hleft := executed_notMem_departure p (p.apply .poll) wait
    simp only [beats] at h hmem
    cases hexec : p.executes? with
    | none =>
      rw [hexec] at hmem
      exact absurd hmem hleft
    | some wait' =>
      rw [hexec] at h
      cases before with
      | nil => cases h; exact ⟨rfl, rfl⟩
      | cons b before =>
        have htail : p.departure (p.apply .poll) = before ++ .executed wait :: rest := (List.cons.inj h).2
        rw [htail] at hleft
        exact absurd (by simp) hleft
  | tick =>
    simp only [beats] at hmem
    split at hmem <;> simp at hmem
  | select choice => exact absurd hmem (executed_notMem_departure _ _ _)
  | setMode mode => cases hmem
  | observe => cases hmem

/-- A journal that reaches a command was led by a shorter run up to that command. -/
private theorem exists_run_of_journal {p : Player} {ops : List Operation} {before after : List Beat} {wait : UInt16}
    (h : p.journal ops = before ++ .executed wait :: after) :
    ∃ ops', p.journal ops' = before ∧ (p.run ops').executes? = some wait := by
  induction ops generalizing p before with
  | nil => simp [journal] at h
  | cons op ops ih =>
    -- either the operation comes before the command altogether, or the command is among its beats
    have hlater : ∀ rest, before = p.beats op ++ rest →
        (p.apply op).journal ops = rest ++ .executed wait :: after →
        ∃ ops', p.journal ops' = before ∧ (p.run ops').executes? = some wait := by
      intro rest hbefore hrest
      obtain ⟨ops', hjournal, hexec⟩ := ih hrest
      exact ⟨op :: ops', by rw [journal, hjournal, hbefore], hexec⟩
    rw [journal, List.append_eq_append_iff] at h
    rcases h with ⟨rest, hbefore, hrest⟩ | ⟨rest, hbeats, hrest⟩
    · exact hlater rest hbefore hrest
    · cases rest with
      | nil => exact hlater [] (by rw [hbeats, List.append_nil, List.append_nil]) hrest.symm
      | cons b rest =>
        obtain ⟨rfl, -⟩ := List.cons.inj hrest
        obtain ⟨rfl, hexec⟩ := beats_of_executed hbeats
        exact ⟨[], rfl, hexec⟩

/-! ### The account of the wait -/

/-- The wait of the clock is what the last command asked for, less the ticks that have counted since. -/
def Balanced (p : Player) (a : Account) : Prop := p.clock.wait.toNat + a.counted = a.wait.toNat

private theorem balanced_left {p : Player} (h : p.clock.wait = 0) : Balanced p {} := by
  unfold Balanced
  rw [h]
  rfl

theorem departure_of_length {p p' : Player} (h : p'.loaded.length ≠ p.loaded.length) :
    p.departure p' = [.left] := by
  unfold departure
  rw [if_neg (by simp [h])]

theorem departure_of_track?_eq_none {p p' : Player} (h : p'.track? = none) : p.departure p' = [.left] := by
  unfold departure
  rw [if_neg (by simp [h])]

theorem departure_of_stay {p p' : Player} (htrack : p'.track?.isSome = true) (h : p'.loaded = p.loaded) :
    p.departure p' = [] := by
  unfold departure
  rw [if_pos (by simp [htrack, h])]

/-- Where no other track is loaded, the account stays balanced whether or not the track does. -/
private theorem balanced_departure {p p' : Player} {a : Account} (h : Balanced p' a) (hloaded : p'.loaded = p.loaded)
    (hnone : p'.track? = none → p'.clock.wait = 0) : Balanced p' ((p.departure p').foldl Account.enter a) := by
  cases htrack : p'.track? with
  | none =>
    rw [departure_of_track?_eq_none htrack]
    exact balanced_left (hnone htrack)
  | some t =>
    rw [departure_of_stay (by rw [htrack]; rfl) hloaded]
    exact h

private theorem balanced_selectTrack {p p' : Player} {a : Account} (h : Balanced p' a) (hloaded : p'.loaded = p.loaded)
    (hnone : p'.track? = none → p'.clock.wait = 0) (choice : Choice) :
    Balanced (leftBy (selectTrack choice p')) ((p.departure (leftBy (selectTrack choice p'))).foldl Account.enter a) := by
  rcases selectTrack_cases choice p' with
    ⟨e, hselect⟩ | ⟨index, p'', hselect, harrived⟩ | ⟨e, p'', hselect, hstranded⟩
  · rw [hselect]
    exact balanced_departure h hloaded hnone
  · -- the list of loaded tracks tells the new track from the old, even if the place is the same
    obtain ⟨t, -, -, hclock⟩ := harrived.track
    rw [hselect]
    show Balanced p'' ((p.departure p'').foldl Account.enter a)
    rw [departure_of_length (by rw [harrived.loaded_eq, hloaded]; simp)]
    exact balanced_left (by rw [hclock])
  · rw [hselect]
    show Balanced p'' ((p.departure p'').foldl Account.enter a)
    rw [departure_of_track?_eq_none hstranded.track?_eq]
    exact balanced_left hstranded.wait_eq

private theorem balanced_poll {p : Player} {a : Account} (hs : Settled p) (h : Balanced p a) :
    Balanced (p.apply .poll) ((p.beats .poll).foldl Account.enter a) := by
  unfold beats executes?
  cases htrack : p.track? with
  | none =>
    rw [apply_poll, playOn_of_track?_eq_none htrack]
    exact balanced_departure h rfl hs.wait_eq
  | some t =>
    rcases playOn_cases htrack with
      ⟨stream, done, hplay, -⟩ | ⟨wait, choice?, p', hplay, -, hwait, -, hstayed⟩ | ⟨e, p', hplay, hwait, hstayed⟩
    · have hwaiting : Balanced { p with
          track? := some { t with stream }
          clock := ({ t with stream } : Playthrough).publish p.clock } a := h
      rw [apply_poll, hplay]
      exact balanced_departure hwaiting rfl nofun
    · -- the command met no wait, so its own is all there is
      have hcommand : Balanced p' { wait } := by
        unfold Balanced
        rw [hwait, Nat.add_zero]
      rw [apply_poll, hplay]
      cases choice? with
      | none => exact balanced_departure hcommand hstayed.loaded_eq hstayed.wait_eq
      | some choice => exact balanced_selectTrack hcommand hstayed.loaded_eq hstayed.wait_eq choice
    · have hbroken : Balanced p' a := by
        unfold Balanced
        rw [hwait]
        exact h
      rw [apply_poll, hplay]
      exact balanced_selectTrack hbroken hstayed.loaded_eq hstayed.wait_eq .next

theorem balanced_beats {p : Player} {a : Account} (hs : Settled p) (h : Balanced p a) (op : Operation) :
    Balanced (p.apply op) ((p.beats op).foldl Account.enter a) := by
  cases op with
  | poll => exact balanced_poll hs h
  | tick =>
    show Balanced { p with clock := p.clock.tick } ((if p.clock.moves then [.counted] else []).foldl Account.enter a)
    unfold Balanced at h ⊢
    by_cases hmoves : p.clock.moves = true
    · have htick := SampleClock.toNat_wait_tick hmoves
      rw [if_pos hmoves]
      show p.clock.tick.wait.toNat + (a.counted + 1) = a.wait.toNat
      omega
    · have htick : p.clock.tick = p.clock := if_neg hmoves
      rw [if_neg hmoves]
      show p.clock.tick.wait.toNat + a.counted = a.wait.toNat
      rw [htick, h]
  | select choice => exact balanced_selectTrack h rfl hs.wait_eq choice
  | setMode mode => exact h
  | observe => exact h

private theorem balanced_journal {p : Player} {a : Account} (hs : Settled p) (h : Balanced p a)
    (ops : List Operation) : Balanced (p.run ops) ((p.journal ops).foldl Account.enter a) := by
  induction ops generalizing p a with
  | nil => exact h
  | cons op ops ih =>
    rw [run_cons, journal, List.foldl_append]
    exact ih (settled_apply hs op) (balanced_beats hs h op)

theorem balanced_of_start {library : Library} {config : PlayerConfig} {words : RandomWords} {p : Player}
    (h : start library config words = .ok () p) (ops : List Operation) :
    Balanced (p.run ops) (.ofBeats (p.journal ops)) := by
  obtain ⟨index, harrived⟩ := arrived_of_start h
  obtain ⟨t, -, -, hclock⟩ := harrived.track
  exact balanced_journal (settled_of_start h) (balanced_left (by rw [hclock])) ops

/-- A command is executed only when no wait is left, and then the wait is its own. -/
theorem wait_of_executes? {p : Player} {wait : UInt16} (h : p.executes? = some wait) :
    p.clock.wait = 0 ∧ p.playOn.2.2.clock.wait = wait := by
  unfold executes? at h
  cases htrack : p.track? with
  | none =>
    rw [playOn_of_track?_eq_none htrack] at h
    cases h
  | some t =>
    rcases playOn_cases htrack with
      ⟨stream, done, hplay, -⟩ | ⟨wait', choice?, p', hplay, hzero, hwait, -⟩ | ⟨e, p', hplay, -⟩
    · rw [hplay] at h
      cases h
    · rw [hplay] at h
      cases h
      exact ⟨hzero, by rw [hplay]; exact hwait⟩
    · rw [hplay] at h
      cases h

/-- After every row of operations on a player that has started: a command that the next turn executes meets a wait
of zero and leaves its own; the wait and the ticks that have counted since the last command on the track make up
what that command asked for; and between two commands on one track as many ticks have counted as the first asked
for. -/
theorem waits_exact {library : Library} {config : PlayerConfig} {words : RandomWords} {p : Player}
    (h : start library config words = .ok () p) (ops : List Operation) :
    (∀ wait, (p.run ops).executes? = some wait →
      (p.run ops).clock.wait = 0 ∧ (p.run ops).playOn.2.2.clock.wait = wait) ∧
    (p.run ops).clock.wait.toNat + (Account.ofBeats (p.journal ops)).counted =
      (Account.ofBeats (p.journal ops)).wait.toNat ∧
    ∀ before between after wait wait',
      p.journal ops = before ++ .executed wait :: (between ++ .executed wait' :: after) →
      (∀ b ∈ between, b = .counted) → between.length = wait.toNat := by
  refine ⟨fun _ => wait_of_executes?, balanced_of_start h ops, ?_⟩
  intro before between after wait wait' hjournal hcounted
  rw [← List.cons_append, ← List.append_assoc] at hjournal
  obtain ⟨ops', hjournal', hexec⟩ := exists_run_of_journal hjournal
  -- just before the second command no wait is left, so all of the first has been counted
  have hbalanced := balanced_of_start h ops'
  obtain ⟨hzero, -⟩ := wait_of_executes? hexec
  rw [Balanced, hzero, hjournal', Account.ofBeats, List.foldl_append, List.foldl_cons,
    Account.foldl_enter_counted hcounted] at hbalanced
  simpa [Account.enter] using hbalanced

/-- A track that waits for two samples and goes round. -/
private def shortTune : Library where
  tracks := #[.ofBytes "short" ([0x56, 0x67, 0x6D, 0x20] ++ List.replicate 0x3C 0 ++ [0x71, 0x66])]

theorem waits_exact_shortTune :
    ∃ p, start shortTune {} [] = .ok () p ∧
      p.journal [.poll, .poll, .tick, .tick, .tick, .poll] = [.executed 2, .counted, .counted, .executed 0] ∧
      [Beat.counted, .counted].length = (2 : UInt16).toNat := by
  have hstart : start shortTune {} [] = .ok () (leftBy (start shortTune {} [])) :=
    eq_ok_of_succeeds (by decide +kernel)
  have hjournal : (leftBy (start shortTune {} [])).journal [.poll, .poll, .tick, .tick, .tick, .poll] =
      [.executed 2, .counted, .counted, .executed 0] := by decide +kernel
  exact ⟨_, hstart, hjournal, (waits_exact hstart _).2.2 [] _ [] 2 0 hjournal (by decide)⟩

end Player

end VgmPlayback
