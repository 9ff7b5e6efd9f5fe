import VgmPlayback.Proofs.PlayingFromMemory

/-!
# Streaming is transparent

A caller may step a track, refill its stream and read its metadata in any order.  Over an image in memory the
steps show what reading the score with one cursor shows (`reports_eq_of_start`): the same waits, the same
writes, the same unknown opcodes and the same loop counts, up to and including the first failure.  Neither
the room of the stream nor that of the copied loop head shows, and no refill does.
-/

namespace VgmPlayback

/-- What one step shows: its wait or failure, its writes, and what is noted and counted afterwards. -/
structure Report where
  result : Except FormatError UInt16
  writes : List RegisterWrite
  /-- The byte that was noted last as an unknown opcode. -/
  lastUnknown? : Option UInt8
  unknownCount : UInt32
  loopCount : UInt32

namespace Playthrough

inductive Operation where
  | step
  | refill
  | loadMetadata
deriving DecidableEq, Repr

def Step.report (s : Step) : Report where
  result := s.result
  writes := s.writes
  lastUnknown? := s.track.lastUnknown?.map UnknownOpcode.opcode
  unknownCount := s.track.unknownCount
  loopCount := s.track.loopCount

/-- The reports of the steps among the operations, up to and including the first failure. -/
def reports (p : Playthrough) (clock : SampleClock) : List Operation → List Report
  | [] => []
  | .refill :: ops =>
    let (_, p, clock) := p.refill clock
    p.reports clock ops
  | .loadMetadata :: ops =>
    let (_, p, _) := p.loadMetadata
    p.reports clock ops
  | .step :: ops =>
    let s := p.step clock
    match s.result with
    | .ok _ => s.report :: s.track.reports s.clock ops
    | .error _ => [s.report]

end Playthrough

namespace Score

/-- How far a score has been read: the place, and what was noted and counted on the way. -/
structure Progress where
  place : Place
  lastUnknown? : Option UInt8 := none
  unknownCount : UInt32 := 0

/-- The progress after a command, at the place behind it. -/
def Progress.after (r : Progress) (c : Command) (place : Place) : Progress where
  place
  lastUnknown? := c.unknown?.or r.lastUnknown?
  unknownCount := if c.unknown?.isSome then countUp r.unknownCount else r.unknownCount

def Progress.report (r : Progress) (result : Except FormatError UInt16) (writes : List RegisterWrite) : Report where
  result
  writes
  lastUnknown? := r.lastUnknown?
  unknownCount := r.unknownCount
  loopCount := r.place.loops

/-- The reports of reading `n` commands, up to and including the first failure. -/
def reports (score : Score) : Nat → Progress → List Report
  | 0, _ => []
  | n + 1, r =>
    match score.next? r.place with
    | none => [r.report (.error .unexpectedEof) []]
    | some (c, place) => (r.after c place).report (.ok c.samples) c.writes :: score.reports n (r.after c place)

end Score

namespace Playthrough

/-- The playthrough has come as far as the reading of its score. -/
structure KeepsUp (score : Score) (r : Score.Progress) (p : Playthrough) : Prop where
  plays : p.Plays score r.place
  lastUnknown?_eq : p.lastUnknown?.map UnknownOpcode.opcode = r.lastUnknown?
  unknownCount_eq : p.unknownCount = r.unknownCount

variable {score : Score} {r : Score.Progress} {p : Playthrough}

private theorem Executed.keepsUp {c : Command} {place : Score.Place} {s : Step} (h : p.KeepsUp score r)
    (hs : Executed score place c p s) : s.track.KeepsUp score (r.after c place) where
  plays := hs.plays
  lastUnknown?_eq := by
    rw [hs.lastUnknown?_eq, Score.Progress.after, ← h.lastUnknown?_eq]
    cases c.unknown? <;> rfl
  unknownCount_eq := by
    rw [hs.unknownCount_eq, h.unknownCount_eq]
    rfl

private theorem KeepsUp.report_eq {s : Step} {result : Except FormatError UInt16} {writes : List RegisterWrite}
    (h : s.track.KeepsUp score r) (hresult : s.result = result) (hwrites : s.writes = writes) :
    s.report = r.report result writes := by
  simp only [Step.report, Score.Progress.report, hresult, hwrites, h.lastUnknown?_eq, h.unknownCount_eq,
    h.plays.loopCount_eq]

theorem KeepsUp.reports_eq (h : p.KeepsUp score r) (clock : SampleClock) (ops : List Operation) :
    p.reports clock ops = score.reports (ops.count .step) r := by
  induction ops generalizing p r clock with
  | nil => rfl
  | cons op ops ih =>
    cases op with
    | refill =>
      -- neither a refill nor the metadata moves the playthrough, and neither counts as a step
      obtain ⟨done, stream, hrefill, hplays, -⟩ := h.plays.refill clock
      rw [reports, hrefill, List.count_cons_of_ne (by decide)]
      exact ih ⟨hplays, h.lastUnknown?_eq, h.unknownCount_eq⟩ _
    | loadMetadata =>
      obtain ⟨gd3, notices, hload⟩ := h.plays.loadMetadata
      rw [reports, hload, List.count_cons_of_ne (by decide)]
      exact ih (p := { p with gd3 }) ⟨⟨h.plays.standsAt, h.plays.copyOf, h.plays.loopCount_eq⟩,
        h.lastUnknown?_eq, h.unknownCount_eq⟩ clock
    | step =>
      rw [List.count_cons_self, reports, Score.reports]
      cases hnext : score.next? r.place with
      | none =>
        obtain ⟨stream, notices, hstep⟩ := h.plays.step_of_next?_none hnext clock
        rw [hstep]
        simp only [Step.report, Score.Progress.report, h.lastUnknown?_eq, h.unknownCount_eq, h.plays.loopCount_eq]
      | some next =>
        obtain ⟨c, place⟩ := next
        have hs := h.plays.step_of_next?_some hnext clock
        have hkeeps := hs.keepsUp h
        simp only [hs.result_eq, hkeeps.report_eq hs.result_eq hs.writes_eq, ih hkeeps]

/-- Over an image in memory, however a track is refilled and its metadata read in between, its steps report
what reading the score of the image reports. -/
theorem reports_eq_of_start {image : List UInt8} {capacity headCapacity : Nat}
    (hstart : start (.ofBytes image) capacity headCapacity = .ok p) (clock : SampleClock) (ops : List Operation) :
    ∃ score, Score.ofImage? image = some score ∧
      p.reports clock ops = score.reports (ops.count .step) { place := score.start } := by
  obtain ⟨hdec, hdata⟩ := of_start_eq_ok hstart
  obtain ⟨p', hstart', -, hplays, hunknown, hcount⟩ := start_ofBytes hdec hdata capacity headCapacity
  rw [hstart] at hstart'
  cases hstart'
  refine ⟨_, ?_, KeepsUp.reports_eq ⟨hplays, by rw [hunknown]; rfl, hcount⟩ clock ops⟩
  rw [Score.ofImage?, hdec]
  exact if_neg (Nat.not_lt.2 hdata)

/-- The shortest header, a write, a wait, an unknown byte, and the end. -/
private def sample : List UInt8 := List.replicate 0x40 0 ++ [0x54, 0x08, 0x78, 0x71, 0x00, 0x66]

/-- A stream of two bytes and a loop head of one, on which the track goes round once and on into the wait. -/
theorem reports_eq_of_start_loop :
    ∃ p, start (.ofBytes sample) 2 1 = .ok p ∧ ∃ score, Score.ofImage? sample = some score ∧
      p.reports {} [.refill, .step, .loadMetadata, .step, .step, .refill, .step, .step, .step] =
        score.reports 6 { place := score.start } := by
  have hdec : Header.decode sample = .ok (.ofImage sample 0x40) := by rfl
  have hdata : (Header.ofImage sample 0x40).dataStart ≤ sample.length := by
    simp [Header.ofImage, Header.dataStart, sample]
  obtain ⟨p, hstart, -⟩ := start_ofBytes hdec hdata 2 1
  exact ⟨p, hstart, reports_eq_of_start hstart {} _⟩

end Playthrough

end VgmPlayback
