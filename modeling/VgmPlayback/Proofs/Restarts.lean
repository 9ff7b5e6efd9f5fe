import VgmPlayback.Proofs.Abreast
import VgmPlayback.Proofs.Provenance
import VgmPlayback.Proofs.Transparency

/-!
# Going round

At the end of the commands a track goes back to the loop point.  What it is then does not depend on what it was
(`Playthrough.Restarted`): the queue holds the loop head, the source stands behind it, and the counters start again.
So a track that goes round and round does the same each time, however it is refilled meanwhile: of the passes after
the first, all that are finished are one list of records, with the positions of unknown opcodes, and one that is under
way is the beginning of it (`Playthrough.restarts_alike`).

That a pass is the same each time is a statement about two runs.  Both start at the loop point, abreast, and steps
keep them so.
-/

namespace VgmPlayback.Playthrough

open CommandStream (uniform_fetch)

/-- One thing that a caller does to a track, whether or not it succeeds. -/
inductive Use : Playthrough → Playthrough → Prop where
  | move {p p' : Playthrough} (h : Move p p') : Use p p'
  | loadMetadata (p : Playthrough) : Use p p.loadMetadata.2.1

/-- The next command is the end of the commands. -/
def atEnd (p : Playthrough) : Bool :=
  match p.stream.fetch with
  | .ok .endOfData _ => true
  | _ => false

/-- What a step from `p` has done that went back: the queue holds `n` bytes from the loop point `offset` on, all
counters are set by that, and the clock is ready. -/
structure Restarted (image : List UInt8) (offset n : Nat) (p : Playthrough) (s : Step) : Prop where
  result_eq : s.result = .ok 0
  pending_eq : s.track.stream.pending.toList = (image.drop offset).take n
  source_eq : s.track.stream.source = .inImage image (offset + n)
  bufferPos_eq : s.track.stream.bufferPos = 0
  cmdPos_eq : s.track.stream.cmdPos = UInt32.ofNat (n - 1)
  ready : s.clock.ready = true
  loopHead_eq : s.track.loopHead = p.loopHead
  loopCount_eq : s.track.loopCount = countUp p.loopCount

/-- What one step tells: its wait or failure, its writes, and the unknown opcode that it met, with its position. -/
structure Record where
  result : Except FormatError UInt16
  writes : List RegisterWrite
  unknown? : Option UnknownOpcode

def Step.record (s : Step) : Record where
  result := s.result
  writes := s.writes
  unknown? := s.track.lastUnknown?

/-- The records of the steps among the operations, in passes: those of the first pass, and those of each later one.  A
pass ends with the step that goes back, so the last one is under way.  The caller takes the latest unknown opcode
before each step. -/
def passes (p : Playthrough) (clock : SampleClock) : List Operation → List Record × List (List Record)
  | [] => ([], [])
  | .refill :: ops =>
    let (_, p, clock) := p.refill clock
    p.passes clock ops
  | .loadMetadata :: ops =>
    let (_, p, _) := p.loadMetadata
    p.passes clock ops
  | .step :: ops =>
    let s := p.takeUnknown.2.step clock
    let (now, later) := s.track.passes s.clock ops
    if p.atEnd then ([s.record], now :: later) else (s.record :: now, later)

/-- Two rows of passes, the last of each under way, are rows of one pass. -/
structure SamePass (row row' : List (List Record)) : Prop where
  finished : ∀ pass ∈ row.dropLast, ∀ pass' ∈ row'.dropLast, pass = pass'
  underWay : ∀ pass ∈ row, ∀ pass' ∈ row'.dropLast, pass <+: pass'
  alongside : ∀ pass ∈ row, ∀ pass' ∈ row', pass <+: pass' ∨ pass' <+: pass

variable {image : List UInt8} {room offset : Nat} {head : LoopHead} {p p' : Playthrough} {ops ops' : List Operation}

/-! ### Going back -/

/-- A track that is at the loop point as every restart leaves it. -/
structure AtLoopPoint (image : List UInt8) (room offset : Nat) (head : LoopHead) (p : Playthrough) : Prop where
  standsAt : p.stream.StandsAt image offset
  capacity_eq : p.stream.capacity = room
  cmdPos_eq : p.stream.cmdPos = UInt32.ofNat (min room head.length - 1)
  loopHead_eq : p.loopHead = head

theorem AtLoopPoint.abreast (h : p.AtLoopPoint image room offset head) (h' : p'.AtLoopPoint image room offset head) :
    p.Abreast image room head p' where
  stream := {
    standAt := ⟨offset, h.standsAt, h'.standsAt⟩
    capacity_eq := h.capacity_eq
    capacity_eq' := h'.capacity_eq
    cmdPos_eq := by rw [h.cmdPos_eq, h'.cmdPos_eq] }
  loopHead_eq := h.loopHead_eq
  loopHead_eq' := h'.loopHead_eq

/-- What a step at the end of the commands comes to. -/
theorem step_of_atEnd (hcopy : head.CopyOf image offset) (h : p.Abreast image room head p)
    (hend : p.atEnd = true) (clock : SampleClock) :
    (p.step clock).track.AtLoopPoint image room offset head ∧
      Restarted image offset (min room head.length) p (p.step clock) := by
  have hfetch := uniform_fetch h.stream
  unfold atEnd at hend
  cases hf : p.stream.fetch with
  | error e t =>
    rw [hf] at hend
    cases hend
  | ok c t =>
    rw [hf] at hend hfetch
    have ht := hfetch.of_ok
    cases c with
    | endOfData =>
      obtain ⟨k, hs, -⟩ := ht.standAt
      obtain ⟨t', hinject, hstands, hcap, hpending, hbuffer, hcmd⟩ :=
        LoopHead.inject_of_copyOf (s := t.reset) hcopy hs.source_eq hs.capacity_pos
      have hroom : t.reset.capacity = room := ht.capacity_eq
      have hsize : t'.pending.size = min room head.length := by
        rw [hpending, Fifo.size_take, hroom]
        rfl
      have hbytes := hstands.pending_eq
      have hsource := hstands.source_eq
      rw [hroom] at hcap hcmd
      rw [hsize] at hbytes hsource
      simp only [step, hf, perform, restart, h.loopHead_eq, hinject]
      exact ⟨⟨hstands, hcap, hcmd, rfl⟩,
        ⟨rfl, hbytes, hsource, hbuffer, hcmd, rfl, h.loopHead_eq.symm, rfl⟩⟩
    | _ => cases hend

theorem Use.abreast (hcopy : head.CopyOf image offset) (huse : Use p p') (h : p.Abreast image room head p) :
    p'.Abreast image room head p' := by
  cases huse with
  | move hmove =>
    cases hmove with
    | refill clock => exact h.refill clock clock
    | step clock => exact (h.step hcopy rfl clock clock).track
    | takeUnknown => exact h.takeUnknown
  | loadMetadata => exact h.loadMetadata

theorem abreast_of_uses (hcopy : head.CopyOf image offset) (h : p.Abreast image room head p)
    (huses : Relation.ReflTransGen Use p p') : p'.Abreast image room head p' := by
  induction huses with
  | refl => exact h
  | tail _ huse ih => exact huse.abreast hcopy ih

/-! ### Passes -/

theorem Abreast.atEnd_eq (h : p.Abreast image room head p') : p'.atEnd = p.atEnd := by
  have hfetch := uniform_fetch h.stream
  unfold atEnd
  generalize p.stream.fetch = r at hfetch ⊢
  generalize p'.stream.fetch = r' at hfetch ⊢
  cases hfetch with
  | ok c _ => cases c <;> rfl
  | error e _ => rfl

theorem Step.Alike.record_eq {s s' : Step} (h : Step.Alike image room head s s') : s'.record = s.record := by
  rw [Step.record, h.result_eq, h.writes_eq, h.lastUnknown?_eq, Step.record]

/-- The passes depend on the number of steps only. -/
theorem Abreast.passes_eq (hcopy : head.CopyOf image offset) (h : p.Abreast image room head p')
    (clock clock' : SampleClock) (ops : List Operation) :
    p.passes clock ops = p'.passes clock' (List.replicate (ops.count .step) .step) := by
  induction ops generalizing p p' clock clock' with
  | nil => rfl
  | cons op ops ih =>
    cases op with
    | refill =>
      rw [List.count_cons_of_ne (by decide)]
      exact ih (h.refill_left clock) _ clock'
    | loadMetadata =>
      rw [List.count_cons_of_ne (by decide)]
      exact ih h.loadMetadata_left clock clock'
    | step =>
      have hs := h.takeUnknown.step hcopy rfl clock clock'
      have hrest := ih hs.track (p.takeUnknown.2.step clock).clock (p'.takeUnknown.2.step clock').clock
      rw [List.count_cons_self, List.replicate_succ]
      simp only [passes, hrest, hs.record_eq, h.atEnd_eq]

private theorem compare_replicate (hcopy : head.CopyOf image offset) (h : p.Abreast image room head p')
    (clock clock' : SampleClock) (n m : Nat) :
    (p.passes clock (List.replicate n .step)).1 <+: (p'.passes clock' (List.replicate m .step)).1 ∨
    ((p'.passes clock' (List.replicate m .step)).1 <+: (p.passes clock (List.replicate n .step)).1 ∧
      (p'.passes clock' (List.replicate m .step)).2 = []) := by
  induction n generalizing m p p' clock clock' with
  | zero => exact .inl List.nil_prefix
  | succ n ih =>
    cases m with
    | zero => exact .inr ⟨List.nil_prefix, rfl⟩
    | succ m =>
      have hs := h.takeUnknown.step hcopy rfl clock clock'
      have hrest := ih hs.track (p.takeUnknown.2.step clock).clock (p'.takeUnknown.2.step clock').clock m
      simp only [List.replicate_succ, passes, hs.record_eq, h.atEnd_eq]
      cases p.atEnd with
      | true => exact .inl (List.prefix_refl _)
      | false =>
        rcases hrest with hle | ⟨hle, hnone⟩
        · exact .inl ((List.prefix_cons_inj _).2 hle)
        · exact .inr ⟨(List.prefix_cons_inj _).2 hle, hnone⟩

/-- Of the first passes of two tracks abreast, one is the beginning of the other, and the first track has come no
further unless the other is still in it. -/
theorem Abreast.compare (hcopy : head.CopyOf image offset) (h : p.Abreast image room head p')
    (clock clock' : SampleClock) (ops ops' : List Operation) :
    (p.passes clock ops).1 <+: (p'.passes clock' ops').1 ∨
    ((p'.passes clock' ops').1 <+: (p.passes clock ops).1 ∧ (p'.passes clock' ops').2 = []) := by
  rw [h.passes_eq hcopy clock clock' ops, h.symm.passes_eq hcopy clock' clock ops']
  exact compare_replicate hcopy h.symm clock' clock _ _

/-- Every later pass begins where a restart leaves the track. -/
theorem passes_of_append (hcopy : head.CopyOf image offset) (h : p.Abreast image room head p) {clock : SampleClock}
    {pass : List Record} {front rest : List (List Record)} (hsplit : (p.passes clock ops).2 = front ++ pass :: rest) :
    ∃ (q : Playthrough) (clock' : SampleClock) (ops' : List Operation),
      q.AtLoopPoint image room offset head ∧ q.passes clock' ops' = (pass, rest) := by
  induction ops generalizing p clock front with
  | nil =>
    have hnil : [] = front ++ pass :: rest := hsplit
    simp at hnil
  | cons op ops ih =>
    cases op with
    | refill => exact ih (h.refill clock clock) hsplit
    | loadMetadata => exact ih h.loadMetadata hsplit
    | step =>
      have hs := (h.takeUnknown.step hcopy rfl clock clock).track
      simp only [passes] at hsplit
      by_cases hend : p.atEnd = true
      · rw [if_pos hend] at hsplit
        cases front with
        | nil =>
          -- this is the pass that the step at the end begins
          obtain ⟨hpass, hrest⟩ := List.cons.inj hsplit
          refine ⟨_, _, ops, (step_of_atEnd hcopy h.takeUnknown hend clock).1, Prod.ext hpass hrest⟩
        | cons first front => exact ih hs (List.cons.inj hsplit).2
      · rw [if_neg hend] at hsplit
        exact ih hs hsplit

private theorem exists_append_of_mem_dropLast {α : Type} {a : α} {l : List α} (h : a ∈ l.dropLast) :
    ∃ front rest, l = front ++ a :: rest ∧ rest ≠ [] := by
  obtain ⟨front, rest, hl⟩ := List.append_of_mem h
  have hne : l ≠ [] := by
    rintro rfl
    cases h
  refine ⟨front, rest ++ [l.getLast hne], ?_, by simp⟩
  rw [← List.cons_append, ← List.append_assoc, ← hl, List.dropLast_concat_getLast]

/-- Of two later passes, one is the beginning of the other, and it is the shorter one that has come no further. -/
private theorem compare_later (hcopy : head.CopyOf image offset) (h : p.Abreast image room head p)
    {clock clock' : SampleClock} {pass pass' : List Record} {front front' rest rest' : List (List Record)}
    (hsplit : (p.passes clock ops).2 = front ++ pass :: rest)
    (hsplit' : (p.passes clock' ops').2 = front' ++ pass' :: rest') :
    pass <+: pass' ∨ (pass' <+: pass ∧ rest' = []) := by
  obtain ⟨q, qclock, qops, hq, heq⟩ := passes_of_append hcopy h hsplit
  obtain ⟨q', qclock', qops', hq', heq'⟩ := passes_of_append hcopy h hsplit'
  have hcompare := (hq.abreast hq').compare hcopy qclock qclock' qops qops'
  rw [heq, heq'] at hcompare
  exact hcompare

private theorem later_prefix_finished (hcopy : head.CopyOf image offset) (h : p.Abreast image room head p)
    {clock clock' : SampleClock} {pass pass' : List Record} (hpass : pass ∈ (p.passes clock ops).2)
    (hpass' : pass' ∈ (p.passes clock' ops').2.dropLast) : pass <+: pass' := by
  obtain ⟨front, rest, hsplit⟩ := List.append_of_mem hpass
  obtain ⟨front', rest', hsplit', hrest'⟩ := exists_append_of_mem_dropLast hpass'
  rcases compare_later hcopy h hsplit hsplit' with hle | ⟨-, hnone⟩
  · exact hle
  · exact absurd hnone hrest'

theorem samePass_passes (hcopy : head.CopyOf image offset) (h : p.Abreast image room head p)
    (clock clock' : SampleClock) (ops ops' : List Operation) :
    SamePass (p.passes clock ops).2 (p.passes clock' ops').2 where
  finished := by
    intro pass hpass pass' hpass'
    have hle := later_prefix_finished hcopy h (List.dropLast_subset _ hpass) hpass'
    have hge := later_prefix_finished hcopy h (List.dropLast_subset _ hpass') hpass
    exact hle.eq_of_length_le hge.length_le
  underWay := by
    intro pass hpass pass' hpass'
    exact later_prefix_finished hcopy h hpass hpass'
  alongside := by
    intro pass hpass pass' hpass'
    obtain ⟨front, rest, hsplit⟩ := List.append_of_mem hpass
    obtain ⟨front', rest', hsplit'⟩ := List.append_of_mem hpass'
    exact (compare_later hcopy h hsplit hsplit').imp_right And.left

/-- Over an image in memory, whatever a caller has done with a track: a step at the end of the commands fills the queue
with the bytes from the loop point on, as many as the loop head has room for and the image has, moves the source
behind them, starts the counters again, leaves the clock ready and the loop head as it was, and counts the loop.
Hence all passes after the first are one pass, in one run and in any two, whenever the stream is refilled. -/
theorem restarts_alike {capacity headCapacity : Nat}
    (hstart : start (.ofBytes image) capacity headCapacity = .ok p) :
    (∀ q clock, Relation.ReflTransGen Use p q → q.atEnd = true →
      Restarted image p.header.loopStart
        (min (min headCapacity (max capacity 1)) (image.length - p.header.loopStart)) q (q.step clock)) ∧
    ∀ clock ops clock' ops', SamePass (p.passes clock ops).2 (p.passes clock' ops').2 := by
  obtain ⟨hdec, hdata⟩ := of_start_eq_ok hstart
  obtain ⟨p', hstart', -, hplays, -, -, hroom, hlength, -⟩ := exists_start_ofBytes hdec hdata capacity headCapacity
  rw [hstart] at hstart'
  cases hstart'
  have h : p.Abreast image (max capacity 1) p.loopHead p :=
    ⟨⟨⟨_, hplays.standsAt, hplays.standsAt⟩, hroom, hroom, rfl⟩, rfl, rfl⟩
  refine ⟨?_, fun clock ops clock' ops' => samePass_passes hplays.copyOf h clock clock' ops ops'⟩
  intro q clock huses hend
  obtain ⟨-, hrestarted⟩ := step_of_atEnd hplays.copyOf (abreast_of_uses hplays.copyOf h huses) hend clock
  have hmin : min (max capacity 1) p.loopHead.length =
      min (min headCapacity (max capacity 1)) (image.length - p.header.loopStart) := by
    rw [hlength]
    omega
  rw [hmin] at hrestarted
  exact hrestarted

/-- The shortest header, a write, a wait, an unknown byte, and the end; the commands are gone through from their start
each time. -/
private def roundTune : List UInt8 := List.replicate 0x40 0 ++ [0x54, 0x08, 0x78, 0x71, 0x00, 0x66]

/-- Steps with refills and metadata in between, three times round and a little further. -/
private def unsteady : List Operation :=
  [.step, .refill, .step, .step, .step, .loadMetadata, .step, .step, .refill, .refill, .step, .step, .refill, .step,
    .step, .step, .loadMetadata, .step, .step, .step]

private def laterPasses (ops : List Operation) : List (List Record) :=
  match start (.ofBytes roundTune) 2 1 with
  | .ok p => (p.passes {} ops).2
  | .error _ => []

private def endsAfterThree : Bool :=
  match start (.ofBytes roundTune) 2 1 with
  | .ok p => (((p.step {}).track.step {}).track.step {}).track.atEnd
  | .error _ => false

/-- A stream of two bytes and a loop head of one: after three steps the track is at the end of the commands, and goes
back.  Eleven steps in a row come to the second later pass, fourteen with refills and metadata in between to the
third, and the passes are the same. -/
theorem restarts_alike_roundTune : ∃ p q, start (.ofBytes roundTune) 2 1 = .ok p ∧ q.atEnd = true ∧
    Restarted roundTune p.header.loopStart (min (min 1 (max 2 1)) (roundTune.length - p.header.loopStart)) q
      (q.step {}) ∧
    (p.passes {} (List.replicate 11 .step)).2.length = 2 ∧ (p.passes {} unsteady).2.length = 3 ∧
    SamePass (p.passes {} (List.replicate 11 .step)).2 (p.passes {} unsteady).2 := by
  have hdec : Header.decode roundTune = .ok (.ofImage roundTune 0x40) := by rfl
  have hdata : (Header.ofImage roundTune 0x40).dataStart ≤ roundTune.length := by
    simp [Header.ofImage, Header.dataStart, roundTune]
  obtain ⟨p, hstart, -⟩ := start_ofBytes hdec hdata 2 1
  obtain ⟨hgoesBack, hsame⟩ := restarts_alike hstart
  have hlater : ∀ ops, laterPasses ops = (p.passes {} ops).2 := by
    intro ops
    rw [laterPasses, hstart]
  have hend : (((p.step {}).track.step {}).track.step {}).track.atEnd = true := by
    have hends : endsAfterThree = true := by decide +kernel
    rw [endsAfterThree, hstart] at hends
    exact hends
  have huses : Relation.ReflTransGen Use p (((p.step {}).track.step {}).track.step {}).track :=
    ((Relation.ReflTransGen.single (.move (.step p {}))).tail (.move (.step _ {}))).tail (.move (.step _ {}))
  refine ⟨p, _, hstart, hend, hgoesBack _ {} huses hend, ?_, ?_, hsame {} _ {} unsteady⟩
  · rw [← hlater]
    decide +kernel
  · rw [← hlater]
    decide +kernel

end VgmPlayback.Playthrough
