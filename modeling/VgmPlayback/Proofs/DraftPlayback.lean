import VgmPlayback.Proofs.DraftFiles
import VgmPlayback.Proofs.Transparency

/-!
# Drafts play back as they were written

A track that is made by edits, none of them raw bytes, plays back command by command (`Draft.plays_back`): first all
that was written, and then, as often as one likes, what was written since the last loop mark.  The end marker takes
one step of its own each time, and counts.  The waits up to the first end are the length in the header.
-/

namespace VgmPlayback

namespace Report

/-- What is reported of executing `c`, with nothing unknown met and the end reached `loops` times. -/
def ofCommand (loops : UInt32) (c : Command) : Report where
  result := .ok c.samples
  writes := c.writes
  lastUnknown? := none
  unknownCount := 0
  loopCount := loops

/-- What is reported of going through `commands` and the end marker `n` times, the end having been reached `loops`
times before. -/
def passes (commands : List Command) : Nat → UInt32 → List Report
  | 0, _ => []
  | n + 1, loops =>
    commands.map (ofCommand loops) ++ ofCommand (countUp loops) .endOfData :: passes commands n (countUp loops)

end Report

namespace Edit

/-- The commands that the edits append. -/
def written (edits : List Edit) : List Command := edits.filterMap command?

variable {e : Edit} {c : Command}

private theorem bytes_eq_nil (hraw : ∀ bytes, e ≠ .raw bytes) (hc : e.command? = none) : e.bytes = [] := by
  cases e with
  | raw bytes => exact absurd rfl (hraw bytes)
  | field f w => rfl
  | markLoop => rfl
  | metadata g => rfl
  | _ => cases hc

private theorem plain_of_command? (hc : e.command? = some c) : c ≠ .endOfData ∧ c.unknown? = none := by
  cases e with
  | field f w => cases hc
  | raw bytes => cases hc
  | markLoop => cases hc
  | metadata g => cases hc
  | _ =>
    cases hc
    exact ⟨nofun, rfl⟩

private theorem samples_eq (e : Edit) : e.samples = (e.command?.map fun c => c.samples.toNat).getD 0 := by
  cases e with
  | waitShort samples =>
    have hle : shortSamples samples ≤ 16 := Nat.min_le_right _ _
    show shortSamples samples = (UInt16.ofNat (shortSamples samples)).toNat
    rw [UInt16.toNat_ofNat']
    omega
  | _ => rfl

theorem sum_samples (edits : List Edit) :
    (edits.map samples).sum = ((written edits).map fun c => c.samples.toNat).sum := by
  induction edits with
  | nil => rfl
  | cons e edits ih =>
    rw [List.map_cons, List.sum_cons, ih, samples_eq, written, written, List.filterMap_cons]
    cases e.command? with
    | none => exact Nat.zero_add _
    | some c => rfl

end Edit

namespace Score

variable {score : Score}

/-- Reading fewer commands reports the beginning of what reading more of them reports. -/
theorem reports_take {m n : Nat} (hle : m ≤ n) (r : Progress) : score.reports m r = (score.reports n r).take m := by
  induction m generalizing n r with
  | zero => rfl
  | succ m ih =>
    obtain ⟨n, rfl⟩ : ∃ k, n = k + 1 := ⟨n - 1, by omega⟩
    unfold reports
    cases score.next? r.place with
    | none => simp only [List.take_succ_cons, List.take_nil]
    | some next =>
      obtain ⟨c, place⟩ := next
      simp only [List.take_succ_cons]
      rw [ih (Nat.le_of_succ_le_succ hle)]

/-- Where the bytes of some edits stand before an end marker, the score has their commands, and then goes on at the
loop point. -/
private theorem reports_of_drop {edits : List Edit} (hraw : ∀ e ∈ edits, ∀ bytes, e ≠ .raw bytes)
    (hsize : (edits.flatMap Edit.bytes).length < UInt32.size) (place : Place) {rest : List UInt8}
    (hdrop : score.image.drop place.cursor = edits.flatMap Edit.bytes ++ 0x66 :: rest) (n : Nat) :
    score.reports ((Edit.written edits).length + (n + 1)) { place } =
      (Edit.written edits).map (Report.ofCommand place.loops) ++
        Report.ofCommand (countUp place.loops) .endOfData ::
          score.reports n { place := { cursor := score.loopStart, loops := countUp place.loops } } := by
  induction edits generalizing place with
  | nil =>
    have hdec : Command.decode? (score.image.drop place.cursor) = some (.endOfData, 1) := by
      rw [hdrop]
      rfl
    have hnext : score.next? place =
        some (.endOfData, { cursor := score.loopStart, loops := countUp place.loops }) := by
      rw [next?, hdec]
    show score.reports (0 + (n + 1)) { place } = _
    rw [Nat.zero_add, reports, hnext]
    rfl
  | cons e edits ih =>
    have hraw' : ∀ e' ∈ edits, ∀ bytes, e' ≠ .raw bytes := fun e' hmem => hraw e' (List.mem_cons_of_mem _ hmem)
    rw [List.flatMap_cons, List.length_append] at hsize
    rw [List.flatMap_cons, List.append_assoc] at hdrop
    cases hc : e.command? with
    | none =>
      -- the edit appends nothing
      rw [Edit.bytes_eq_nil (hraw e (List.mem_cons_self ..)) hc, List.nil_append] at hdrop
      rw [show Edit.written (e :: edits) = Edit.written edits from List.filterMap_cons_none hc]
      exact ih hraw' (by omega) place hdrop
    | some c =>
      obtain ⟨hne, hunknown⟩ := Edit.plain_of_command? hc
      have hdec : Command.decode? (score.image.drop place.cursor) = some (c, e.bytes.length) := by
        rw [hdrop]
        exact Edit.decode?_bytes hc (by omega) _
      have hnext : score.next? place = some (c, { place with cursor := place.cursor + e.bytes.length }) := by
        rw [next?, hdec]
        cases c with
        | endOfData => exact absurd rfl hne
        | _ => rfl
      have hafter : ({ place : Progress }).after c { place with cursor := place.cursor + e.bytes.length } =
          { place := { place with cursor := place.cursor + e.bytes.length } } := by
        rw [Progress.after, hunknown]
        rfl
      have hrest : score.image.drop (place.cursor + e.bytes.length) = edits.flatMap Edit.bytes ++ 0x66 :: rest := by
        rw [← List.drop_drop, hdrop, List.drop_left]
      have hlater := ih hraw' (by omega) { place with cursor := place.cursor + e.bytes.length } hrest
      rw [show Edit.written (e :: edits) = c :: Edit.written edits from List.filterMap_cons_some hc, List.length_cons,
        Nat.add_right_comm, reports, hnext]
      dsimp only
      rw [hafter, hlater]
      rfl

private theorem reports_passes {edits : List Edit} (hraw : ∀ e ∈ edits, ∀ bytes, e ≠ .raw bytes)
    (hsize : (edits.flatMap Edit.bytes).length < UInt32.size) {rest : List UInt8}
    (hdrop : score.image.drop score.loopStart = edits.flatMap Edit.bytes ++ 0x66 :: rest) (n : Nat) (loops : UInt32) :
    score.reports (Report.passes (Edit.written edits) n loops).length
        { place := { cursor := score.loopStart, loops } } =
      Report.passes (Edit.written edits) n loops := by
  induction n generalizing loops with
  | zero => rfl
  | succ n ih =>
    rw [Report.passes, List.length_append, List.length_map, List.length_cons, reports_of_drop hraw hsize _ hdrop]
    dsimp only
    rw [ih]

end Score

namespace Draft

open Playthrough

/-- What is reported of playing a track that the edits make: all that was written, and then `n` times what was written
since the last loop mark. -/
def playback (edits : List Edit) (n : Nat) : List Report :=
  Report.passes (Edit.written edits) 1 0 ++ Report.passes (Edit.written (afterMark edits)) n 1

variable {edits : List Edit}

private theorem reports_playback {score : Score} (hraw : ∀ e ∈ edits, ∀ bytes, e ≠ .raw bytes)
    (hsize : (edits.flatMap Edit.bytes).length < UInt32.size) {rest : List UInt8}
    (hstart : score.image.drop score.dataStart = edits.flatMap Edit.bytes ++ 0x66 :: rest)
    (hloop : score.image.drop score.loopStart = (afterMark edits).flatMap Edit.bytes ++ 0x66 :: rest) (n : Nat) :
    score.reports (playback edits n).length { place := score.start } = playback edits n := by
  have hsuffix : afterMark edits <:+ edits := List.rtakeWhile_suffix _ _
  have hraw' : ∀ e ∈ afterMark edits, ∀ bytes, e ≠ .raw bytes := fun e hmem => hraw e (hsuffix.subset hmem)
  have hsize' : ((afterMark edits).flatMap Edit.bytes).length < UInt32.size := by
    obtain ⟨before, hbefore⟩ := hsuffix
    rw [← hbefore, List.flatMap_append, List.length_append] at hsize
    omega
  have hfirst := Score.reports_of_drop hraw hsize score.start hstart
    (Report.passes (Edit.written (afterMark edits)) n 1).length
  have hlength : (playback edits n).length =
      (Edit.written edits).length + ((Report.passes (Edit.written (afterMark edits)) n 1).length + 1) := by
    simp only [playback, Report.passes, List.length_append, List.length_map, List.length_cons, List.length_nil]
    omega
  have hone : countUp score.start.loops = 1 := rfl
  rw [hlength, hfirst, hone, Score.reports_passes hraw' hsize' hloop]
  simp only [playback, Report.passes, List.append_assoc, List.cons_append, List.nil_append]
  rfl

/-- A track that is made by edits other than raw bytes plays back as it was written, however it is refilled and its
metadata read in between, and its header has the sum of its waits. -/
theorem plays_back (hraw : ∀ e ∈ edits, ∀ bytes, e ≠ .raw bytes) (hsize : (ofEdits edits).image.length < UInt32.size)
    (capacity headCapacity : Nat) :
    ∃ p, start (.ofBytes (ofEdits edits).image) capacity headCapacity = .ok p ∧
      (p.header.get .totalSamples).toNat =
        min ((Edit.written edits).map fun c => c.samples.toNat).sum 0xFFFFFFFF ∧
      ∀ clock ops n, ops.count .step ≤ (playback edits n).length →
        p.reports clock ops = (playback edits n).take (ops.count .step) := by
  obtain ⟨h, hdec, hdata, hcommands, hloop, htotal⟩ := decode_image hsize
  obtain ⟨p, hstart, hheader, hplays, hunknown, hcount⟩ := start_ofBytes hdec hdata capacity headCapacity
  refine ⟨p, hstart, ?_, ?_⟩
  · rw [hheader, htotal, Edit.sum_samples]
  · intro clock ops n hle
    have hbytes : (edits.flatMap Edit.bytes).length < UInt32.size := by
      have hlength := congrArg List.length hcommands
      rw [List.length_drop, List.length_append, List.length_cons] at hlength
      omega
    let score : Score := { image := (ofEdits edits).image, dataStart := h.dataStart, loopStart := h.loopStart }
    have hkeeps : KeepsUp score { place := score.start } p := ⟨hplays, by rw [hunknown]; rfl, hcount⟩
    have hread : score.reports (playback edits n).length { place := score.start } = playback edits n :=
      reports_playback hraw hbytes hcommands hloop n
    rw [hkeeps.reports_eq clock ops, Score.reports_take hle, hread]

/-- A write and a wait, and from there on a block that holds an end marker, and a frame. -/
private def rounds : List Edit :=
  [.field .version 0x150, .field .dataOffset 0x40, .write 0x08 0x78, .wait 0x0102, .markLoop, .block 0x00 [0x66],
    .waitNtscFrame, .metadata { trackName := "Rounds" }]

/-- Once through, once round, and into the second round. -/
theorem plays_back_rounds : ∃ p, start (.ofBytes (ofEdits rounds).image) 2 3 = .ok p ∧
    (p.header.get .totalSamples).toNat = 0x0102 + 735 ∧
    p.reports {} (.refill :: List.replicate 9 .step) =
      [⟨.ok 0, [⟨0x08, 0x78⟩], none, 0, 0⟩, ⟨.ok 0x0102, [], none, 0, 0⟩, ⟨.ok 0, [], none, 0, 0⟩,
        ⟨.ok 735, [], none, 0, 0⟩, ⟨.ok 0, [], none, 0, 1⟩, ⟨.ok 0, [], none, 0, 1⟩, ⟨.ok 735, [], none, 0, 1⟩,
        ⟨.ok 0, [], none, 0, 2⟩, ⟨.ok 0, [], none, 0, 2⟩] := by
  have hraw : ∀ e ∈ rounds, ∀ bytes, e ≠ .raw bytes := by simp [rounds]
  obtain ⟨p, hstart, htotal, hreports⟩ := plays_back hraw (by decide +kernel) 2 3
  exact ⟨p, hstart, htotal, hreports {} _ 2 (by decide)⟩

end Draft

end VgmPlayback
