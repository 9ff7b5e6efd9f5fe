import VgmPlayback.Proofs.CountedPasses
import VgmPlayback.Proofs.FirstInFirstOut
import VgmPlayback.Proofs.UnknownOpcodes

/-!
# What the counters count

A stream keeps two counters of the bytes that it has consumed, both modulo 2^32, and neither of them is its place: that
is the position of the source less what is queued (`CommandStream.cursor`).  Over an image in memory the counters tell
the place nevertheless (`CommandStream.CountsFrom`).  In the first pass both count from the data start; when the track
goes back they count from the loop point, one of them from as many bytes on as were copied there, less one.

Everything that moves a stream moves its counters with it (`CommandStream.CountsFrom.after`), also what fails on the
way; only going back starts them again.  So they are exact wherever a caller has brought the track, and so is the
position that is noted with an unknown opcode (`Playthrough.counters_exact`).
-/

namespace VgmPlayback

namespace CommandStream

/-- The stream has come to its place from `base`, and both counters tell how far, the one of the loop from `seed`
on. -/
structure CountsFrom (base seed : Nat) (s : CommandStream) : Prop where
  size_le : s.pending.size ≤ s.source.pos
  base_le : base ≤ s.cursor
  bufferPos_eq : s.bufferPos.toNat = (s.cursor - base) % 2 ^ 32
  cmdPos_eq : s.cmdPos.toNat = (seed + (s.cursor - base)) % 2 ^ 32

variable {image : List UInt8} {c n base seed : Nat} {s s' : CommandStream}

private theorem StandsAt.size_le_pos (h : s.StandsAt image c) : s.pending.size ≤ s.source.pos := by
  rw [h.source_eq, Source.pos_inImage]
  exact Nat.le_add_left _ _

/-- A stream at its base has counted nothing yet. -/
theorem StandsAt.countsFrom (h : s.StandsAt image base) (hbuffer : s.bufferPos = 0)
    (hcmd : s.cmdPos = UInt32.ofNat seed) : s.CountsFrom base seed where
  size_le := h.size_le_pos
  base_le := by rw [h.cursor_eq]
  bufferPos_eq := by
    rw [hbuffer, h.cursor_eq, Nat.sub_self]
    rfl
  cmdPos_eq := by rw [hcmd, h.cursor_eq, Nat.sub_self, UInt32.toNat_ofNat', Nat.add_zero]

/-- However far the stream is moved on, the counters keep count. -/
theorem CountsFrom.after (h : s.CountsFrom base seed) (hs : s.StandsAt image c) (hafter : After image c n s s') :
    s'.CountsFrom base seed := by
  obtain ⟨-, hbase, hbuffer, hcmd⟩ := h
  have hcursor' := hafter.standsAt.cursor_eq
  rw [hs.cursor_eq] at hbase hbuffer hcmd
  refine ⟨hafter.standsAt.size_le_pos, by omega, ?_, ?_⟩
  · rw [hafter.bufferPos_eq, UInt32.toNat_add, UInt32.toNat_ofNat', hbuffer, hcursor']
    omega
  · rw [hafter.cmdPos_eq, UInt32.toNat_add, UInt32.toNat_ofNat', hcmd, hcursor']
    omega

/-- In an image that the counter can count, the next byte to be consumed stands where the counter says. -/
theorem CountsFrom.getElem?_of_consume {b : UInt8} (h : s.CountsFrom base seed) (hs : s.StandsAt image c)
    (hlength : seed + (image.length - base) ≤ 2 ^ 32) (hconsume : s.consume = .ok b s') :
    image[base + s.cmdPos.toNat - seed]? = some b := by
  obtain ⟨-, hbase, -, hcmd⟩ := h
  rw [hs.cursor_eq] at hbase hcmd
  by_cases hlt : c < image.length
  · obtain ⟨s₁, hconsume', -⟩ := hs.consume_of_lt hlt
    rw [hconsume'] at hconsume
    cases hconsume
    have hplace : base + s.cmdPos.toNat - seed = c := by
      rw [hcmd, Nat.mod_eq_of_lt (by omega)]
      omega
    rw [hplace, List.getElem?_eq_getElem hlt]
  · rw [hs.consume_of_le (Nat.le_of_not_lt hlt)] at hconsume
    cases hconsume

end CommandStream

namespace Playthrough

open CommandStream (After CountsFrom)

/-- `q` is what a caller may have made of the track `p`, whether or not it succeeded in what it did, and on the way the
track went back to the loop point `n` times. -/
inductive Leads (p : Playthrough) : (n : Nat) → (q : Playthrough) → Prop where
  | start : Leads p 0 p
  | refill {n : Nat} {q : Playthrough} (h : Leads p n q) (clock : SampleClock) : Leads p n (q.refill clock).2.1
  | loadMetadata {n : Nat} {q : Playthrough} (h : Leads p n q) : Leads p n q.loadMetadata.2.1
  | takeUnknown {n : Nat} {q : Playthrough} (h : Leads p n q) : Leads p n q.takeUnknown.2
  | step {n : Nat} {q : Playthrough} (h : Leads p n q) (clock : SampleClock) :
    Leads p (n + if (q.step clock).result.toBool && q.atEnd then 1 else 0) (q.step clock).track

/-- A track over the image, with this room in its stream and this loop head, whose counters count from `base`. -/
structure Counting (image : List UInt8) (room : Nat) (head : LoopHead) (base seed : Nat) (p : Playthrough) : Prop where
  abreast : p.Abreast image room head p
  counts : p.stream.CountsFrom base seed

variable {image : List UInt8} {room offset c n base seed : Nat} {head : LoopHead} {p q : Playthrough}

/-- A step elsewhere than at the end of the commands moves the stream on, whatever it comes to. -/
theorem exists_after_step (hs : q.stream.StandsAt image c) (hend : q.atEnd = false) (clock : SampleClock) :
    ∃ n, After image c n q.stream (q.step clock).track.stream := by
  obtain ⟨n, hafter⟩ := CommandStream.Agrees.exists_after CommandStream.relates_agrees.fetch hs
  unfold atEnd at hend
  unfold step
  cases hfetch : q.stream.fetch with
  | error e stream =>
    rw [hfetch] at hafter
    exact ⟨n, hafter⟩
  | ok command stream =>
    rw [hfetch] at hafter hend
    have hafter : After image c n q.stream stream := hafter
    have hpassOver : ∀ count notices,
        ∃ m, After image c m q.stream (({ q with stream } : Playthrough).passOver clock count notices).track.stream := by
      intro count notices
      obtain ⟨m, hafter'⟩ := hafter.standsAt.exists_after_discard count
      refine ⟨n + m, hafter.trans ?_⟩
      unfold passOver
      cases hdiscard : stream.discard count <;> rw [hdiscard] at hafter' <;> exact hafter'
    cases command with
    | skip operands => exact hpassOver _ _
    | block kind size => exact hpassOver _ _
    | endOfData => cases hend
    | _ => exact ⟨n, hafter⟩

theorem Counting.refill (h : q.Counting image room head base seed) (clock : SampleClock) :
    (q.refill clock).2.1.Counting image room head base seed := by
  obtain ⟨c, hs, -⟩ := h.abreast.stream.standAt
  obtain ⟨done, stream, hrefill, hafter, -⟩ := hs.refill
  refine ⟨h.abreast.refill clock clock, ?_⟩
  simp only [Playthrough.refill, hrefill]
  exact h.counts.after hs hafter

theorem Counting.loadMetadata (h : q.Counting image room head base seed) :
    q.loadMetadata.2.1.Counting image room head base seed := by
  obtain ⟨c, hs, -⟩ := h.abreast.stream.standAt
  obtain ⟨gd3, notices, hload⟩ := loadMetadata_of_standsAt hs
  refine ⟨h.abreast.loadMetadata, ?_⟩
  rw [hload]
  exact h.counts

/-- A step goes on counting from where it did, or it goes back and counts from the loop point. -/
theorem Counting.step (h : q.Counting image room head base seed) (hcopy : head.CopyOf image offset)
    (hroom : head.length ≤ room) (clock : SampleClock) :
    (q.atEnd = false ∧ (q.step clock).track.Counting image room head base seed) ∨
    (q.atEnd = true ∧ (q.step clock).result = .ok 0 ∧
      (q.step clock).track.Counting image room head offset (max head.length 1 - 1)) := by
  have habreast := (h.abreast.step hcopy rfl clock clock).track
  cases hend : q.atEnd with
  | false =>
    obtain ⟨c, hs, -⟩ := h.abreast.stream.standAt
    obtain ⟨n, hafter⟩ := exists_after_step hs hend clock
    exact .inl ⟨rfl, habreast, h.counts.after hs hafter⟩
  | true =>
    obtain ⟨hloopPoint, hrestarted⟩ := step_of_atEnd hcopy h.abreast hend clock
    refine .inr ⟨rfl, hrestarted.result_eq, habreast, hloopPoint.standsAt.countsFrom hrestarted.bufferPos_eq ?_⟩
    have hseed : min room head.length - 1 = max head.length 1 - 1 := by omega
    rw [hrestarted.cmdPos_eq, hseed]

theorem Leads.counting (h : Leads p n q) (hcopy : head.CopyOf image offset) (hroom : head.length ≤ room)
    (hp : p.Counting image room head base seed) :
    q.Counting image room head (if n = 0 then base else offset) (if n = 0 then seed else max head.length 1 - 1) := by
  induction h with
  | start => exact hp
  | refill _ clock ih => exact ih.refill clock
  | loadMetadata _ ih => exact ih.loadMetadata
  | takeUnknown _ ih => exact ⟨ih.abreast.takeUnknown, ih.counts⟩
  | step _ clock ih =>
    rcases ih.step hcopy hroom clock with ⟨hend, hnext⟩ | ⟨hend, hresult, hnext⟩
    · rw [hend, Bool.and_false, if_neg Bool.false_ne_true]
      exact hnext
    · have hback : ((Except.ok 0 : Except FormatError UInt16).toBool && true) = true := rfl
      rw [hend, hresult, if_pos hback, if_neg (Nat.succ_ne_zero _), if_neg (Nat.succ_ne_zero _)]
      exact hnext

private theorem countUp_ne_zero (n : UInt32) : countUp n ≠ 0 := by
  by_cases hne : n = 0xFFFFFFFF
  · rw [countUp, if_pos hne, hne]
    decide
  · rw [countUp, if_neg hne]
    intro hzero
    refine hne (UInt32.toNat.inj ?_)
    have hlt := n.toNat_lt
    have hsum := congrArg UInt32.toNat hzero
    rw [UInt32.toNat_add, UInt32.toNat_one, UInt32.toNat_zero] at hsum
    show n.toNat = 4294967295
    omega

/-- The loop count of the track tells whether it has gone back. -/
theorem Leads.loopCount_eq_zero_iff (h : Leads p n q) (hp : p.loopCount = 0) : q.loopCount = 0 ↔ n = 0 := by
  induction h with
  | start => exact iff_of_true hp rfl
  | @refill n q _ clock ih =>
    rcases q.refill_cases clock with ⟨done, stream, hrefill, -⟩ | ⟨e, stream, hrefill, -⟩
    · rw [hrefill]
      exact ih
    · rw [hrefill]
      exact ih
  | @loadMetadata n q _ ih =>
    unfold Playthrough.loadMetadata
    dsimp only
    split <;> exact ih
  | takeUnknown _ ih => exact ih
  | @step n q _ clock ih =>
    rw [loopCount_step]
    by_cases hback : ((q.step clock).result.toBool && q.atEnd) = true
    · rw [if_pos hback, if_pos hback]
      exact iff_of_false (countUp_ne_zero _) (Nat.succ_ne_zero _)
    · rw [if_neg hback, if_neg hback]
      exact ih

/-- Over an image in memory, whatever a caller has made of a track: until it goes back both counters have counted from
the data start; after that the one has counted from the loop point, and the other from there and from one less than the
number of bytes copied.  Hence, if the image is shorter than 2^31 bytes, an unknown opcode that a step notes is the byte
of the image at the position that is noted with it. -/
theorem counters_exact {capacity headCapacity : Nat} (hstart : start (.ofBytes image) capacity headCapacity = .ok p)
    (hleads : Leads p n q) :
    (q.loopCount = 0 ↔ n = 0) ∧ q.loopHead = p.loopHead ∧
    (n = 0 → q.stream.CountsFrom p.header.dataStart 0) ∧
    (n ≠ 0 → q.stream.CountsFrom p.header.loopStart (max p.loopHead.length 1 - 1)) ∧
    (image.length < 2 ^ 31 → ∀ clock e, (q.takeUnknown.2.step clock).track.lastUnknown? = some e →
      (n = 0 → image[p.header.dataStart + e.position.toNat]? = some e.opcode) ∧
      (n ≠ 0 → image[p.header.loopStart + e.position.toNat - (max p.loopHead.length 1 - 1)]? = some e.opcode)) := by
  obtain ⟨hdec, hdata⟩ := of_start_eq_ok hstart
  obtain ⟨p', hstart', -, hplays, -, -, hroom, hlength, hbuffer, hcmd⟩ :=
    exists_start_ofBytes hdec hdata capacity headCapacity
  rw [hstart] at hstart'
  cases hstart'
  have hfits : p.loopHead.length ≤ max capacity 1 := by omega
  have hp : p.Counting image (max capacity 1) p.loopHead p.header.dataStart 0 :=
    ⟨⟨⟨⟨_, hplays.standsAt, hplays.standsAt⟩, hroom, hroom, rfl⟩, rfl, rfl⟩, hplays.standsAt.countsFrom hbuffer hcmd⟩
  have hcopy : p.loopHead.CopyOf image p.header.loopStart := hplays.copyOf
  have hq := hleads.counting hcopy hfits hp
  have hfirst : n = 0 → q.stream.CountsFrom p.header.dataStart 0 := by
    intro hn
    have hcounts := hq.counts
    rwa [if_pos hn, if_pos hn] at hcounts
  have hlater : n ≠ 0 → q.stream.CountsFrom p.header.loopStart (max p.loopHead.length 1 - 1) := by
    intro hn
    have hcounts := hq.counts
    rwa [if_neg hn, if_neg hn] at hcounts
  refine ⟨hleads.loopCount_eq_zero_iff hplays.loopCount_eq, hq.abreast.loopHead_eq, hfirst, hlater, ?_⟩
  intro hshort clock e hnoted
  obtain ⟨c, hs, -⟩ := hq.abreast.stream.standAt
  -- the note is of this step, because the earlier one was taken
  have hnext : q.unknownNext? = some e := by
    rcases q.takeUnknown.2.unknown_step clock with ⟨e', hnext, -, hnote⟩ | ⟨-, hnote⟩
    · rw [hnoted] at hnote
      cases hnote
      exact hnext
    · rw [hnoted] at hnote
      cases hnote
  obtain ⟨hposition, -, stream, hconsume⟩ := unknownNext?_eq_some hnext
  rw [hposition]
  constructor
  · intro hn
    have hbyte := (hfirst hn).getElem?_of_consume hs (by omega) hconsume
    rwa [Nat.sub_zero] at hbyte
  · intro hn
    exact (hlater hn).getElem?_of_consume hs (by omega) hconsume

/-- The shortest header, with the loop point behind the first command: an unknown byte, a wait, another unknown byte, and
the end. -/
private def lateLoop : List UInt8 :=
  List.replicate 0x1C 0 ++ [0x25, 0, 0, 0] ++ List.replicate 0x20 0 ++ [0x9F, 0x71, 0x05, 0x66]

private def lateTrack : Playthrough := (start (.ofBytes lateLoop) 2 2).toOption.get (by decide +kernel)

private theorem start_lateLoop : start (.ofBytes lateLoop) 2 2 = .ok lateTrack := by
  have hsome : (start (.ofBytes lateLoop) 2 2).toOption = some lateTrack := (Option.some_get _).symm
  cases hstart : start (.ofBytes lateLoop) 2 2 with
  | error e =>
    rw [hstart] at hsome
    cases hsome
  | ok p =>
    rw [hstart] at hsome
    cases hsome
    rfl

/-- How often the track goes back in some steps, and what becomes of it. -/
private def steps (p : Playthrough) : Nat → Nat × Playthrough
  | 0 => (0, p)
  | k + 1 =>
    let (n, q) := steps p k
    (n + if (q.step {}).result.toBool && q.atEnd then 1 else 0, (q.step {}).track)

private theorem leads_steps (p : Playthrough) (k : Nat) : p.Leads (steps p k).1 (steps p k).2 := by
  induction k with
  | zero => exact .start
  | succ k ih => exact ih.step {}

/-- Two bytes are copied at the loop point.  The second unknown byte is the third byte of the first pass; in the next
pass, which goes over the loop only and counts from one on, it has the same position. -/
theorem counters_exact_lateLoop : ∃ p q q' : Playthrough, start (.ofBytes lateLoop) 2 2 = .ok p ∧
    Leads p 0 q ∧ q.stream.CountsFrom p.header.dataStart 0 ∧
    (q.takeUnknown.2.step {}).track.lastUnknown? = some ⟨0x05, 2⟩ ∧
    lateLoop[p.header.dataStart + (2 : UInt32).toNat]? = some 0x05 ∧
    Leads p 1 q' ∧ q'.stream.CountsFrom p.header.loopStart (max p.loopHead.length 1 - 1) ∧
    (q'.takeUnknown.2.step {}).track.lastUnknown? = some ⟨0x05, 2⟩ ∧
    lateLoop[p.header.loopStart + (2 : UInt32).toNat - (max p.loopHead.length 1 - 1)]? = some 0x05 ∧
    max p.loopHead.length 1 - 1 = 1 ∧ lateLoop.length < 2 ^ 31 := by
  have hshort : lateLoop.length < 2 ^ 31 := by decide +kernel
  have hfirst : (steps lateTrack 2).1 = 0 := by decide +kernel
  have hlater : (steps lateTrack 5).1 = 1 := by decide +kernel
  have hleads := leads_steps lateTrack 2
  have hleads' := leads_steps lateTrack 5
  rw [hfirst] at hleads
  rw [hlater] at hleads'
  have hnote : ((steps lateTrack 2).2.takeUnknown.2.step {}).track.lastUnknown? = some ⟨0x05, 2⟩ := by decide +kernel
  have hnote' : ((steps lateTrack 5).2.takeUnknown.2.step {}).track.lastUnknown? = some ⟨0x05, 2⟩ := by decide +kernel
  obtain ⟨-, -, hcounts, -, hbyte⟩ := counters_exact start_lateLoop hleads
  obtain ⟨-, -, -, hcounts', hbyte'⟩ := counters_exact start_lateLoop hleads'
  exact ⟨lateTrack, _, _, start_lateLoop, hleads, hcounts rfl, hnote, (hbyte hshort _ _ hnote).1 rfl, hleads',
    hcounts' Nat.one_ne_zero, hnote', (hbyte' hshort _ _ hnote').2 Nat.one_ne_zero, by decide +kernel, hshort⟩

end Playthrough

end VgmPlayback
