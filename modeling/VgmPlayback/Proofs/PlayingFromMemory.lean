import VgmPlayback.Playback.Score
import VgmPlayback.Proofs.HeaderReading
import VgmPlayback.Proofs.SourceActions
import VgmPlayback.Proofs.StreamReading

/-!
# Playing a track from memory

A playthrough of an image in memory plays the image's score: it is at a place of the score (`Plays`) from its
start on (`start_ofBytes`), refilling and reading metadata leave it there (`Plays.refill`, `Plays.loadMetadata`),
and a step executes the command that stands there (`Plays.step_of_next?_some`) or fails where the image ends
before the command does (`Plays.step_of_next?_none`).
-/

namespace VgmPlayback

/-! ### Metadata -/

namespace Source

/-- Over an image in memory the action does not fail, and the source stays over that image. -/
def Succeeds {α : Type} (act : EStateM IoError Source α) : Prop :=
  ∀ image k, ∃ a j, act (inImage image k) = .ok a (inImage image j)

private theorem Succeeds.bind {α β : Type} {act : EStateM IoError Source α} {next : α → EStateM IoError Source β}
    (h : Succeeds act) (hnext : ∀ a, Succeeds (next a)) : Succeeds (act >>= next) := by
  intro image k
  obtain ⟨a, j, hact⟩ := h image k
  obtain ⟨b, i, hthen⟩ := hnext a image j
  refine ⟨b, i, ?_⟩
  simp only [Bind.bind, EStateM.bind, hact, hthen]

theorem inherited_succeeds : Inherited Succeeds where
  pure a := fun _ k => ⟨a, k, rfl⟩
  seek pos := fun _ _ => ⟨(), pos, rfl⟩
  take n := fun image k => ⟨_, _, take_inImage image k n⟩
  bind := Succeeds.bind

end Source

namespace Gd3

open Source

theorem read_inImage (h : Header) (image : List UInt8) (k : Nat) :
    ∃ g findings, read h (.inImage image k) = { result := .ok g, source := .inImage image k, findings } := by
  unfold read
  cases h.gd3Start? with
  | none => exact ⟨{}, [], rfl⟩
  | some pos =>
    obtain ⟨⟨g, findings⟩, j, hread⟩ := inherited_succeeds.readAt pos image k
    refine ⟨g, findings, ?_⟩
    simp only [hread]
    rfl

end Gd3

namespace Command

/-- The byte that is noted as an unknown opcode. -/
def unknown? : Command → Option UInt8
  | unknown byte => some byte
  | _ => none

end Command

/-! ### The score being played -/

namespace Score

variable {score : Score} {place : Place}

theorem next?_of_decode?_none (hdec : Command.decode? (score.image.drop place.cursor) = none) :
    score.next? place = none := by
  simp only [next?, hdec]

theorem next?_of_decode?_some {c : Command} {n : Nat}
    (hdec : Command.decode? (score.image.drop place.cursor) = some (c, n)) :
    score.next? place = some (c, if c = .endOfData then { cursor := score.loopStart, loops := countUp place.loops }
      else { place with cursor := place.cursor + n }) := by
  cases c <;> simp only [next?, hdec, reduceCtorEq, ↓reduceIte]

end Score

namespace Playthrough

/-- The playthrough plays the score and is at this place of it. -/
structure Plays (score : Score) (place : Score.Place) (p : Playthrough) : Prop where
  standsAt : p.stream.StandsAt score.image place.cursor
  copyOf : p.loopHead.CopyOf score.image score.loopStart
  loopCount_eq : p.loopCount = place.loops

variable {score : Score} {place place' : Score.Place} {p : Playthrough}

/-- Over an image in memory a track starts if the image reaches the data start.  It then plays the score of the
image from its start, with nothing counted yet, and its loop head holds what there is of the bytes that it has room
for. -/
theorem exists_start_ofBytes {image : List UInt8} {h : Header} (hdec : Header.decode image = .ok h)
    (hdata : h.dataStart ≤ image.length) (capacity headCapacity : Nat) :
    ∃ p, start (.ofBytes image) capacity headCapacity = .ok p ∧ p.header = h ∧
      p.Plays { image, dataStart := h.dataStart, loopStart := h.loopStart } { cursor := h.dataStart } ∧
      p.lastUnknown? = none ∧ p.unknownCount = 0 ∧ p.stream.capacity = max capacity 1 ∧
      p.loopHead.length = min (min headCapacity (max capacity 1)) (image.length - h.loopStart) ∧
      p.stream.bufferPos = 0 ∧ p.stream.cmdPos = 0 := by
  have hempty : (CommandStream.ofSource (.inImage image h.dataStart) capacity).StandsAt image h.dataStart :=
    ⟨rfl, rfl, Nat.lt_of_lt_of_le Nat.zero_lt_one (Nat.le_max_right _ _)⟩
  obtain ⟨stream, hfill, hstands, hroom, hbuffer, hcmd⟩ := hempty.fill
  obtain ⟨head, hsnapshot, hcopy, hlength, -⟩ :=
    (LoopHead.empty (min headCapacity stream.capacity)).snapshot_inImage image h.loopStart
      (h.dataStart + stream.pending.size)
  rw [hroom] at hlength
  refine ⟨{ stream, header := h, loopHead := head }, ?_, rfl, ⟨hstands, hcopy, rfl⟩, rfl, rfl, hroom, hlength,
    hbuffer, hcmd⟩
  simp only [start, Source.ofBytes_eq_inImage, Header.read_inImage_eq_ok hdec hdata, Source.seek_inImage, hfill,
    hstands.source_eq, hsnapshot]
  rw [← hstands.source_eq]

theorem start_ofBytes {image : List UInt8} {h : Header} (hdec : Header.decode image = .ok h)
    (hdata : h.dataStart ≤ image.length) (capacity headCapacity : Nat) :
    ∃ p, start (.ofBytes image) capacity headCapacity = .ok p ∧ p.header = h ∧
      p.Plays { image, dataStart := h.dataStart, loopStart := h.loopStart } { cursor := h.dataStart } ∧
      p.lastUnknown? = none ∧ p.unknownCount = 0 := by
  obtain ⟨p, hstart, hheader, hplays, hunknown, hcount, -⟩ := exists_start_ofBytes hdec hdata capacity headCapacity
  exact ⟨p, hstart, hheader, hplays, hunknown, hcount⟩

/-- A track that started over an image in memory has the header of the image, and the image reaches the data
start. -/
theorem of_start_eq_ok {image : List UInt8} {capacity headCapacity : Nat}
    (hstart : start (.ofBytes image) capacity headCapacity = .ok p) :
    Header.decode image = .ok p.header ∧ p.header.dataStart ≤ image.length := by
  cases hread : Header.read (.ofBytes image) with
  | error e s => simp [start, hread] at hstart
  | ok h s =>
    obtain ⟨hdec, hdata, -⟩ := Header.of_read_inImage_eq_ok hread
    obtain ⟨p', hstart', hheader, -⟩ := start_ofBytes hdec hdata capacity headCapacity
    rw [hstart] at hstart'
    cases hstart'
    rw [hheader]
    exact ⟨hdec, hdata⟩

theorem Plays.refill (h : p.Plays score place) (clock : SampleClock) :
    ∃ done stream, p.refill clock = (.ok done, { p with stream }, ({ p with stream } : Playthrough).publish clock) ∧
      ({ p with stream } : Playthrough).Plays score place ∧
      (stream.pending.isEmpty = true ↔ score.image.length ≤ place.cursor) := by
  obtain ⟨done, stream, hrefill, hafter, hempty⟩ := h.standsAt.refill
  exact ⟨done, stream, by simp only [Playthrough.refill, hrefill],
    ⟨hafter.standsAt, h.copyOf, h.loopCount_eq⟩, hempty⟩

/-- Reading the metadata brings the source back to where it was. -/
theorem loadMetadata_of_standsAt {image : List UInt8} {c : Nat} (h : p.stream.StandsAt image c) :
    ∃ gd3 notices, p.loadMetadata = (.ok gd3, { p with gd3 }, notices) := by
  obtain ⟨gd3, findings, hread⟩ := Gd3.read_inImage p.header image (c + p.stream.pending.size)
  rw [← h.source_eq] at hread
  exact ⟨gd3, findings.map .metadata, by simp only [Playthrough.loadMetadata, hread]⟩

theorem Plays.loadMetadata (h : p.Plays score place) :
    ∃ gd3 notices, p.loadMetadata = (.ok gd3, { p with gd3 }, notices) :=
  loadMetadata_of_standsAt h.standsAt

/-! ### Steps -/

/-- What fetching finds at a place, and whether the bytes that are then passed over are there. -/
private theorem Plays.fetch (h : p.Plays score place) :
    (score.next? place = none ∧ ∃ n stream, p.stream.fetch = .error .unexpectedEof stream ∧
      CommandStream.After score.image place.cursor n p.stream stream) ∨
    ∃ c n stream, p.stream.fetch = .ok c stream ∧ CommandStream.After score.image place.cursor n p.stream stream ∧
      score.next? place =
        if c.passedOver.toNat ≤ score.image.length - (place.cursor + n) then
          some (c, if c = .endOfData then { cursor := score.loopStart, loops := countUp place.loops }
            else { place with cursor := place.cursor + n + c.passedOver.toNat })
        else none := by
  have hfetch := CommandStream.relates_agrees.fetch h.standsAt
  have hdec := Command.decode?_eq_andThen (score.image.drop place.cursor)
  cases hhead : ByteParser.commandHead (score.image.drop place.cursor) with
  | none =>
    left
    rw [hhead] at hfetch
    rw [ByteParser.andThen, hhead] at hdec
    exact ⟨Score.next?_of_decode?_none hdec, hfetch⟩
  | some r =>
    right
    obtain ⟨c, n⟩ := r
    rw [hhead] at hfetch
    obtain ⟨stream, hfetch, hafter⟩ := hfetch
    refine ⟨c, n, stream, hfetch, hafter, ?_⟩
    simp only [ByteParser.andThen, hhead, ByteParser.passBytes, ByteParser.done, List.drop_drop, List.length_drop] at hdec
    by_cases hle : c.passedOver.toNat ≤ score.image.length - (place.cursor + n)
    · rw [if_pos hle]
      rw [if_pos hle] at hdec
      rw [Score.next?_of_decode?_some hdec, Nat.add_assoc]
      rfl
    · rw [if_neg hle]
      rw [if_neg hle] at hdec
      exact Score.next?_of_decode?_none hdec

theorem Plays.step_of_next?_none (h : p.Plays score place) (hnext : score.next? place = none)
    (clock : SampleClock) :
    ∃ stream notices, p.step clock =
      { result := .error .unexpectedEof, track := { p with stream }, clock, notices } := by
  rcases h.fetch with ⟨-, n, stream, hfetch, -⟩ | ⟨c, n, stream, hfetch, hafter, heq⟩
  · exact ⟨stream, [], by simp only [step, hfetch]⟩
  · rw [hnext] at heq
    split at heq
    · cases heq
    · -- the head is there, so it is the bytes to pass over that are not
      rename_i hlt
      have hdiscard := hafter.standsAt.discard_of_lt (Nat.not_le.1 hlt)
      cases c with
      | skip operands =>
        simp only [Command.passedOver] at hdiscard
        exact ⟨stream, [], by simp only [step, hfetch, perform, passOver, hdiscard]⟩
      | block kind size =>
        simp only [Command.passedOver] at hdiscard
        exact ⟨stream, [.blockSkipped kind size], by simp only [step, hfetch, perform, passOver, hdiscard]⟩
      | _ => exact absurd (Nat.zero_le _) hlt

/-- What a step has done that executed a command and came to a place behind it. -/
structure Executed (score : Score) (place : Score.Place) (c : Command) (p : Playthrough) (s : Step) : Prop where
  result_eq : s.result = .ok c.samples
  writes_eq : s.writes = c.writes
  plays : s.track.Plays score place
  header_eq : s.track.header = p.header
  lastUnknown?_eq : s.track.lastUnknown? =
    (c.unknown?.map fun opcode => { opcode, position := p.stream.cmdPos }).or p.lastUnknown?
  unknownCount_eq : s.track.unknownCount = if c.unknown?.isSome then countUp p.unknownCount else p.unknownCount

private theorem executed_passOver {c : Command} {n : Nat} {stream : CommandStream} {count : UInt32}
    (h : p.Plays score place) (hafter : CommandStream.After score.image place.cursor n p.stream stream)
    (hle : count.toNat ≤ score.image.length - (place.cursor + n)) (hsamples : c.samples = 0)
    (hwrites : c.writes = []) (hunknown : c.unknown? = none) (clock : SampleClock) (notices : List Notice) :
    Executed score { place with cursor := place.cursor + n + count.toNat } c p
      (({ p with stream } : Playthrough).passOver clock count notices) := by
  obtain ⟨stream', hdiscard, hafter'⟩ := hafter.standsAt.discard_of_le hle
  simp only [passOver, hdiscard]
  exact {
    result_eq := congrArg Except.ok hsamples.symm
    writes_eq := hwrites.symm
    plays := ⟨hafter'.standsAt, h.copyOf, h.loopCount_eq⟩
    header_eq := rfl
    lastUnknown?_eq := by rw [hunknown]; rfl
    unknownCount_eq := by rw [hunknown]; rfl }

theorem Plays.step_of_next?_some {c : Command} (h : p.Plays score place)
    (hnext : score.next? place = some (c, place')) (clock : SampleClock) :
    Executed score place' c p (p.step clock) := by
  rcases h.fetch with ⟨hnone, -⟩ | ⟨c', n, stream, hfetch, hafter, heq⟩
  · rw [hnone] at hnext
    cases hnext
  · rw [heq] at hnext
    split at hnext
    case isFalse => cases hnext
    case isTrue hle =>
      cases hnext
      simp only [step, hfetch]
      have hplays : ({ p with stream } : Playthrough).Plays score { place with cursor := place.cursor + n + 0 } :=
        ⟨hafter.standsAt, h.copyOf, h.loopCount_eq⟩
      cases c with
      | write address data => exact ⟨rfl, rfl, hplays, rfl, rfl, rfl⟩
      | wait samples => exact ⟨rfl, rfl, hplays, rfl, rfl, rfl⟩
      | unknown byte => exact ⟨rfl, rfl, ⟨hafter.standsAt, h.copyOf, h.loopCount_eq⟩, rfl, rfl, rfl⟩
      | skip operands => exact executed_passOver h hafter hle rfl rfl rfl clock []
      | block kind size => exact executed_passOver h hafter hle rfl rfl rfl clock [.blockSkipped kind size]
      | endOfData =>
        obtain ⟨stream', hinject, hstands, -⟩ :=
          LoopHead.inject_of_copyOf (s := stream.reset) h.copyOf hafter.standsAt.source_eq
            hafter.standsAt.capacity_pos
        simp only [perform, restart, hinject]
        exact ⟨rfl, rfl, ⟨hstands, h.copyOf, congrArg countUp h.loopCount_eq⟩, rfl, rfl, rfl⟩

end Playthrough

end VgmPlayback
