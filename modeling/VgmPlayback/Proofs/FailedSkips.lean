import VgmPlayback.Proofs.StreamCapacity

/-!
# Skips that fail

Passing over bytes fails in two ways (`CommandStream.discard_cases`).  If there are fewer bytes than that, nothing
changes.  If the device refuses to move, the bytes in the queue are gone already: the queue is empty, while both
counters and the source's cursor stand where they stood, so the stream has moved past bytes that were never counted.
A failed skip therefore leaves no trace exactly if the stream was too short or there was nothing in the queue to lose
(`CommandStream.traceless_iff_of_discard`).
-/

namespace VgmPlayback

namespace Source

variable {s s' : Source} {pos : Nat}

/-- The device refuses to move to `pos`. -/
def Refuses (s : Source) (pos : Nat) : Prop := ∃ kind, (Fault.fire pos s.medium.seekFaults).1 = some kind

/-- What a refused move leaves: the same source, with other failures planned. -/
def SameButFaults (s s' : Source) : Prop :=
  ∃ faults, s' = { s with medium := { s.medium with seekFaults := faults } }

theorem SameButFaults.pos_eq (h : s.SameButFaults s') : s'.pos = s.pos := by
  obtain ⟨faults, rfl⟩ := h
  rfl

theorem seek_cases (pos : Nat) (s : Source) :
    (s.Refuses pos ∧ ∃ kind s', seek pos s = .error (.seekFault kind pos) s' ∧ s.SameButFaults s') ∨
    (¬ s.Refuses pos ∧ ∃ s', seek pos s = .ok () s') := by
  unfold seek Medium.seek Refuses
  rcases Fault.fire pos s.medium.seekFaults with ⟨kind?, faults⟩
  cases kind? with
  | some kind => exact .inl ⟨⟨kind, rfl⟩, kind, _, rfl, faults, rfl⟩
  | none => exact .inr ⟨nofun, _, rfl⟩

end Source

namespace CommandStream

variable {s s' : CommandStream} {count : UInt32} {e : FormatError}

/-- Where the source has to move to when `count` bytes are passed over. -/
def skipTarget (s : CommandStream) (count : UInt32) : Nat := s.source.pos + (count.toNat - s.pending.size)

/-- The bytes in the queue are lost, and nothing else has changed but what failures are planned. -/
structure Emptied (s s' : CommandStream) : Prop where
  pending_eq : s'.pending.toList = []
  source : s.source.SameButFaults s'.source
  capacity_eq : s'.capacity = s.capacity
  bufferPos_eq : s'.bufferPos = s.bufferPos
  cmdPos_eq : s'.cmdPos = s.cmdPos

theorem discard_cases (count : UInt32) (s : CommandStream) :
    (s.pending.size + s.source.remaining < count.toNat ∧ discard count s = .error .unexpectedEof s) ∨
    ((s.pending.size < count.toNat ∧ count.toNat ≤ s.pending.size + s.source.remaining ∧
        s.source.Refuses (s.skipTarget count)) ∧
      ∃ kind s', discard count s = .error (.io (.seekFault kind (s.skipTarget count))) s' ∧ s.Emptied s') ∨
    (count.toNat ≤ s.pending.size + s.source.remaining ∧
      (s.pending.size < count.toNat → ¬ s.source.Refuses (s.skipTarget count)) ∧
      ∃ s', discard count s = .ok () s') := by
  unfold discard
  dsimp only
  by_cases hshort : s.pending.size + s.source.remaining < count.toNat
  · rw [if_pos hshort]
    exact .inl ⟨hshort, rfl⟩
  · rw [if_neg hshort]
    right
    have hle : count.toNat ≤ s.pending.size + s.source.remaining := Nat.le_of_not_lt hshort
    by_cases hrest : count.toNat - s.pending.size = 0
    · rw [if_pos hrest]
      exact .inr ⟨hle, fun hlt => by omega, _, rfl⟩
    · rw [if_neg hrest]
      have hlt : s.pending.size < count.toNat := by omega
      rcases s.source.seek_cases (s.skipTarget count) with
        ⟨hrefuses, kind, source, hseek, hsame⟩ | ⟨haccepts, source, hseek⟩
      · unfold skipTarget at hseek
        rw [hseek]
        refine .inl ⟨⟨hlt, hle, hrefuses⟩, kind, _, rfl, ?_, hsame, rfl, rfl, rfl⟩
        -- the whole queue is dropped, for the skip goes beyond it
        rw [Fifo.toList_drop, List.drop_eq_nil_iff, ← Fifo.size_eq_length]
        omega
      · unfold skipTarget at hseek
        rw [hseek]
        exact .inr ⟨hle, fun _ => haccepts, _, rfl⟩

/-- The queue, both counters and the source's cursor are the same. -/
structure Traceless (s s' : CommandStream) : Prop where
  pending_eq : s'.pending.toList = s.pending.toList
  bufferPos_eq : s'.bufferPos = s.bufferPos
  cmdPos_eq : s'.cmdPos = s.cmdPos
  pos_eq : s'.source.pos = s.source.pos

theorem Emptied.traceless_iff (h : s.Emptied s') : s.Traceless s' ↔ s.pending.toList = [] := by
  constructor
  · intro htraceless
    rw [← htraceless.pending_eq, h.pending_eq]
  · intro hnil
    exact ⟨h.pending_eq.trans hnil.symm, h.bufferPos_eq, h.cmdPos_eq, h.source.pos_eq⟩

/-- The next byte is then the one at the source's cursor. -/
theorem Emptied.cursor_eq (h : s.Emptied s') : s'.cursor = s.source.pos := by
  rw [cursor, h.source.pos_eq, Fifo.size_eq_length, h.pending_eq, List.length_nil, Nat.sub_zero]

/-- A failed skip leaves no trace exactly if the stream was too short or nothing was in the queue.  If the stream was too
short, nothing at all has changed.  Otherwise it is the device that refused to move; then the queue is empty, and the
stream goes on at the source's cursor although neither counter has moved. -/
theorem traceless_iff_of_discard (h : discard count s = .error e s') :
    (s.Traceless s' ↔ e = .unexpectedEof ∨ s.pending.toList = []) ∧
    (e = .unexpectedEof ↔ s.pending.size + s.source.remaining < count.toNat) ∧
    (e = .unexpectedEof → s' = s) ∧
    (e ≠ .unexpectedEof → s.pending.size < count.toNat ∧ s.source.Refuses (s.skipTarget count) ∧ s.Emptied s' ∧
      s'.cursor = s.source.pos) := by
  rcases discard_cases count s with
    ⟨hshort, hdiscard⟩ | ⟨⟨hlt, hle, hrefuses⟩, kind, s₁, hdiscard, hemptied⟩ | ⟨-, -, s₁, hdiscard⟩ <;>
    rw [hdiscard] at h <;> cases h
  case inl =>
    exact ⟨iff_of_true ⟨rfl, rfl, rfl, rfl⟩ (.inl rfl), iff_of_true rfl hshort, fun _ => rfl, (absurd rfl ·)⟩
  case inr.inl =>
    refine ⟨?_, iff_of_false nofun (by omega), nofun, fun _ => ⟨hlt, hrefuses, hemptied, hemptied.cursor_eq⟩⟩
    rw [hemptied.traceless_iff]
    exact ⟨.inr, fun h => h.resolve_left nofun⟩

/-- A stream over eight bytes with the first four read ahead, on a device that refuses to move to the seventh. -/
private def stuck : CommandStream where
  source := {
    medium := { data := #[0, 1, 2, 3, 4, 5, 6, 7], seekFaults := [⟨6, .other, 1, 0⟩], head := 4 }
    size := 8
    pos := 4 }
  pending := .ofList [0, 1, 2, 3]
  capacity := 4

/-- Six bytes are to be passed over.  The four in the queue are lost without having been counted, and the stream goes on
at the fifth.  Nine bytes are too many, which changes nothing. -/
theorem traceless_iff_of_discard_stuck :
    (∃ s', stuck.discard 6 = .error (.io (.seekFault .other 6)) s' ∧ ¬ stuck.Traceless s' ∧ stuck.Emptied s' ∧
      stuck.cursor = 0 ∧ s'.cursor = 4) ∧
    stuck.discard 9 = .error .unexpectedEof stuck ∧ stuck.Traceless stuck := by
  have hrefused : stuck.discard 6 = .error (.io (.seekFault .other 6)) (leftBy (stuck.discard 6)) := rfl
  have hshort : stuck.discard 9 = .error .unexpectedEof stuck := rfl
  obtain ⟨hiff, -, -, hlost⟩ := traceless_iff_of_discard hrefused
  obtain ⟨-, -, hemptied, hcursor⟩ := hlost nofun
  have htrace : ¬ stuck.Traceless (leftBy (stuck.discard 6)) := by
    rw [hiff]
    decide
  exact ⟨⟨_, hrefused, htrace, hemptied, rfl, hcursor⟩, hshort, (traceless_iff_of_discard hshort).1.2 (.inl rfl)⟩

end CommandStream

end VgmPlayback
