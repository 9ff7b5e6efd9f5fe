import VgmPlayback.Proofs.PlayerRuns
import VgmPlayback.Proofs.Selection

/-!
# Requests that are missed

A request for a name that no track has is refused, and the player goes on as if nobody had asked.  On the way to the
refusal the clock is held off, before it is known whether there will be a switch; that it is let go again just where it
ran before is what `Settled` says: the clock is ready exactly if there is a track (`Player.selectTrack_of_lacks`).

So a run may be padded with such requests, as many as one likes and wherever one likes: the other operations are
answered as without them, and find and leave the same player (`Player.request_missed`).
-/

namespace VgmPlayback

/-- `ys` is `xs` with more entries put in between, all of them extra. -/
inductive Padded {α : Type} (Extra : α → Prop) : List α → List α → Prop where
  | nil : Padded Extra [] []
  | keep (x : α) {xs ys : List α} (h : Padded Extra xs ys) : Padded Extra (x :: xs) (x :: ys)
  | pad {y : α} {xs ys : List α} (hextra : Extra y) (h : Padded Extra xs ys) : Padded Extra xs (y :: ys)

/-- No track has this name, blanks around it aside. -/
def Library.Lacks (library : Library) (request : String) : Prop :=
  ∀ name, some name ∈ library.names → Text.trim name ≠ Text.trim request

namespace Player

variable {library : Library} {p : Player}

/-! ### The names of the tracks -/

theorem names_load (index : Nat) (p : Player) : (leftBy (load index p)).library.names = p.library.names := by
  have hnames := p.library.names_openTrack index
  unfold load
  dsimp only
  rcases hopen : p.library.openTrack index with ⟨e | source, opened⟩
  · rw [hopen] at hnames
    exact hnames
  · rw [hopen] at hnames
    dsimp only
    rcases prepare p.config source { p.clock with wait := 0 } with ⟨e | t, clock, notices⟩
    · exact hnames
    · exact hnames

theorem names_selectTrack (choice : Choice) (p : Player) :
    (leftBy (selectTrack choice p)).library.names = p.library.names :=
  selectTrack_keeps (P := fun p' => p'.library.names = p.library.names)
    (fun h index => (names_load index _).trans h) (fun h _ _ _ => h) rfl choice

theorem names_apply (p : Player) (op : Operation) : (p.apply op).library.names = p.library.names := by
  cases op with
  | poll =>
    have hturn : p.playOn.2.2.library.names = p.library.names := by rw [(playOn_keeps p).1]
    rw [apply_poll]
    cases p.playOn.2.1 with
    | none => exact hturn
    | some choice => exact (names_selectTrack choice _).trans hturn
  | select choice => exact names_selectTrack choice p
  | _ => rfl

/-! ### Reached players -/

/-- A player of this library after some run, whatever has failed on the way, starting included. -/
def ReachedOver (library : Library) (p : Player) : Prop :=
  ∃ config words ops, p = (leftBy (start library config words)).run ops

theorem ReachedOver.apply (h : p.ReachedOver library) (op : Operation) : (p.apply op).ReachedOver library := by
  obtain ⟨config, words, ops, rfl⟩ := h
  exact ⟨config, words, ops ++ [op], (run_append _ ops [op]).symm⟩

theorem ReachedOver.settled (h : p.ReachedOver library) : Settled p := by
  obtain ⟨config, words, ops, rfl⟩ := h
  exact settled_run (settled_start library config words) ops

theorem ReachedOver.names_eq (h : p.ReachedOver library) : p.library.names = library.names := by
  obtain ⟨config, words, ops, rfl⟩ := h
  refine run_keeps (P := fun p => p.library.names = library.names) (fun h op => (names_apply _ op).trans h) ?_ ops
  rw [leftBy_start]
  exact names_selectTrack _ _

/-! ### Missed requests -/

/-- A missed request is refused, and the player is as before. -/
theorem ReachedOver.selectTrack_of_lacks {request : String} (h : p.ReachedOver library) (hsize : library.size ≠ 0)
    (hlacks : library.Lacks request) :
    selectTrack (.request request) p = .error (.notFound (Text.trim request)) p := by
  have hnames : p.library.names ≠ [] := by
    rw [h.names_eq, ← List.length_pos_iff, Library.length_names]
    exact Nat.pos_of_ne_zero hsize
  have hnone : Library.positionIn? p.library.names request = none := by
    rw [Library.positionIn?_eq_none_iff, h.names_eq]
    exact hlacks
  rw [selectTrack_of_select_eq_error (Selector.select_request_of_none p.selector hnames hnone), ← h.settled.ready_eq]

/-- The operation requests a name that no track of the library has. -/
def Misses (library : Library) (op : Operation) : Prop :=
  ∃ request, op = .select (.request request) ∧ library.Lacks request

/-- The entry is a request, and its answer is that no track of this name was found. -/
def Entry.Refused (e : Entry) : Prop :=
  ∃ request, e.operation = .select (.request request) ∧
    e.answer = .selected (.error (.notFound (Text.trim request)))

theorem ReachedOver.padded_transcript {ops padded : List Operation} (h : p.ReachedOver library)
    (hsize : library.size ≠ 0) (hpadded : Padded (Misses library) ops padded) :
    Padded Entry.Refused (p.transcript ops) (p.transcript padded) := by
  induction hpadded generalizing p with
  | nil => exact .nil
  | keep op _ ih => exact .keep _ (ih (h.apply op))
  | pad hmisses _ ih =>
    obtain ⟨request, rfl, hlacks⟩ := hmisses
    have hrefused := h.selectTrack_of_lacks hsize hlacks
    -- the rest of the run starts from the player that it had
    have hstill : p.apply (.select (.request request)) = p := by rw [Player.apply, hrefused, leftBy]
    rw [transcript, hstill]
    exact .pad ⟨request, rfl, by rw [answer, hrefused, outcome]⟩ (ih h)

/-- Wherever a player of a library with tracks may be, with or without a track: a request for a name that no track has
is answered with that name, trimmed, and changes nothing; and however many such requests are put into a run, it says
what it says without them, and the requests are refused. -/
theorem request_missed (h : p.ReachedOver library) (hsize : library.size ≠ 0) :
    (∀ request, library.Lacks request →
      selectTrack (.request request) p = .error (.notFound (Text.trim request)) p) ∧
    ∀ ops padded, Padded (Misses library) ops padded →
      Padded Entry.Refused (p.transcript ops) (p.transcript padded) :=
  ⟨fun _ => h.selectTrack_of_lacks hsize, fun _ _ => h.padded_transcript hsize⟩

/-- A track that waits for three samples and goes round, between two that cannot be loaded. -/
private def middleTune : Library where
  tracks := #[.ofBytes "lo" [], .ofBytes " tune " ([0x56, 0x67, 0x6D, 0x20] ++ List.replicate 0x3C 0 ++ [0x72, 0x66]),
    .ofBytes "st" []]

private def lost : Operation := .select (.request " lost\t")

/-- The requests come while a wait is pending, which runs on. -/
theorem request_missed_inWait : ∃ p : Player, p.ReachedOver middleTune ∧ middleTune.size ≠ 0 ∧ p.clock.wait = 2 ∧
    middleTune.Lacks " lost\t" ∧ selectTrack (.request " lost\t") p = .error (.notFound "lost") p ∧
    Padded (Misses middleTune) [.tick, .poll] [lost, .tick, lost, lost, .poll] ∧
    Padded Entry.Refused (p.transcript [.tick, .poll]) (p.transcript [lost, .tick, lost, lost, .poll]) := by
  have hreached : ((leftBy (start middleTune {} [])).run [.poll, .poll, .tick]).ReachedOver middleTune :=
    ⟨{}, [], [.poll, .poll, .tick], rfl⟩
  have hsize : middleTune.size ≠ 0 := by decide
  have hwait : ((leftBy (start middleTune {} [])).run [.poll, .poll, .tick]).clock.wait = 2 := by decide +kernel
  have hlacks : middleTune.Lacks " lost\t" := by
    have hnames : ∀ name? ∈ middleTune.names, name?.any (Text.trim · != Text.trim " lost\t") := by decide +kernel
    intro name hmem
    simpa using hnames (some name) hmem
  have hmisses : Misses middleTune lost := ⟨" lost\t", rfl, hlacks⟩
  have hpadded : Padded (Misses middleTune) [.tick, .poll] [lost, .tick, lost, lost, .poll] :=
    .pad hmisses (.keep _ (.pad hmisses (.pad hmisses (.keep _ .nil))))
  have htrim : Text.trim " lost\t" = "lost" := by decide +kernel
  obtain ⟨hrefused, htranscript⟩ := request_missed hreached hsize
  exact ⟨_, hreached, hsize, hwait, hlacks, htrim ▸ hrefused _ hlacks, hpadded, htranscript _ _ hpadded⟩

end Player

end VgmPlayback
