import VgmPlayback.Proofs.PlayingFromMemory

/-!
# Streams and tracks abreast

Two command streams over an image in memory are abreast if they stand at one place of it and have counted as many
bytes since the loop point; how much each has read ahead may differ.  What is done to both has one result and leaves
them abreast (`CommandStream.Uniform`): it does not matter what was read ahead, for good or ill.  A refill of one of
them is not noticed (`CommandStream.Abreast.refill_left`).

The same holds of tracks that play from such streams and go back to the loop point from one loop head
(`Playthrough.Abreast.step`).
-/

namespace VgmPlayback

namespace CommandStream

/-- The streams are at one place of the image, each with this room, and have counted the same since the loop point. -/
structure Abreast (image : List UInt8) (room : Nat) (s s' : CommandStream) : Prop where
  standAt : ∃ c, s.StandsAt image c ∧ s'.StandsAt image c
  capacity_eq : s.capacity = room
  capacity_eq' : s'.capacity = room
  cmdPos_eq : s'.cmdPos = s.cmdPos

/-- One result, and streams abreast behind it. -/
inductive Alike {ε α : Type} (image : List UInt8) (room : Nat) :
    EStateM.Result ε CommandStream α → EStateM.Result ε CommandStream α → Prop where
  | ok {s s' : CommandStream} (a : α) (h : Abreast image room s s') : Alike image room (.ok a s) (.ok a s')
  | error {s s' : CommandStream} (e : ε) (h : Abreast image room s s') : Alike image room (.error e s) (.error e s')

/-- The action does the same to streams that are abreast, whether or not it succeeds. -/
def Uniform {α : Type} (act : EStateM FormatError CommandStream α) : Prop :=
  ∀ {image room s s'}, Abreast image room s s' → Alike image room (act s) (act s')

variable {image : List UInt8} {room c n : Nat} {s s' t t' : CommandStream}

theorem Abreast.symm (h : Abreast image room s s') : Abreast image room s' s where
  standAt := by
    obtain ⟨c, hs, hs'⟩ := h.standAt
    exact ⟨c, hs', hs⟩
  capacity_eq := h.capacity_eq'
  capacity_eq' := h.capacity_eq
  cmdPos_eq := h.cmdPos_eq.symm

theorem Abreast.after (h : Abreast image room s s') (hs : After image c n s t) (hs' : After image c n s' t') :
    Abreast image room t t' where
  standAt := ⟨c + n, hs.standsAt, hs'.standsAt⟩
  capacity_eq := hs.capacity_eq.trans h.capacity_eq
  capacity_eq' := hs'.capacity_eq.trans h.capacity_eq'
  cmdPos_eq := by rw [hs.cmdPos_eq, hs'.cmdPos_eq, h.cmdPos_eq]

theorem Abreast.refill_left (h : Abreast image room s s') :
    ∃ done t, refill s = .ok done t ∧ Abreast image room t s' := by
  obtain ⟨c, hs, hs'⟩ := h.standAt
  obtain ⟨done, t, hrefill, hafter, -⟩ := hs.refill
  exact ⟨done, t, hrefill, h.after hafter hs'.after_zero⟩

theorem Alike.of_ok {ε α : Type} {a a' : α}
    (h : @Alike ε α image room (.ok a s) (.ok a' s')) : Abreast image room s s' := by
  cases h with
  | ok _ h => exact h

theorem uniform_pure {α : Type} (a : α) : Uniform (pure a) := fun h => .ok a h

theorem uniform_consume : Uniform consume := by
  intro image room s s' h
  obtain ⟨c, hs, hs'⟩ := h.standAt
  by_cases hlt : c < image.length
  · obtain ⟨t, hconsume, hafter⟩ := hs.consume_of_lt hlt
    obtain ⟨t', hconsume', hafter'⟩ := hs'.consume_of_lt hlt
    rw [hconsume, hconsume']
    exact .ok _ (h.after hafter hafter')
  · have hle := Nat.not_lt.1 hlt
    rw [hs.consume_of_le hle, hs'.consume_of_le hle]
    exact .error _ h

theorem Uniform.bind {α β : Type} {act : EStateM FormatError CommandStream α}
    {next : α → EStateM FormatError CommandStream β} (h : Uniform act) (hnext : ∀ a, Uniform (next a)) :
    Uniform (act >>= next) := by
  intro image room s s' hs
  have hact := h hs
  show Alike image room (EStateM.bind act next s) (EStateM.bind act next s')
  unfold EStateM.bind
  generalize act s = r at hact ⊢
  generalize act s' = r' at hact ⊢
  cases hact with
  | ok a ht => exact hnext a ht
  | error e ht => exact .error e ht

theorem uniform_fetch : Uniform fetch :=
  Relates.fetch (R := fun act _ => Uniform act) ⟨uniform_pure, uniform_consume, Uniform.bind⟩

theorem uniform_discard (count : UInt32) : Uniform (discard count) := by
  intro image room s s' h
  obtain ⟨c, hs, hs'⟩ := h.standAt
  by_cases hle : count.toNat ≤ image.length - c
  · obtain ⟨t, hdiscard, hafter⟩ := hs.discard_of_le hle
    obtain ⟨t', hdiscard', hafter'⟩ := hs'.discard_of_le hle
    rw [hdiscard, hdiscard']
    exact .ok _ (h.after hafter hafter')
  · have hlt := Nat.not_le.1 hle
    rw [hs.discard_of_lt hlt, hs'.discard_of_lt hlt]
    exact .error _ h

end CommandStream

namespace Playthrough

open CommandStream (uniform_fetch uniform_discard)

/-- The tracks play from streams that are abreast, and go back to the loop point from this loop head. -/
structure Abreast (image : List UInt8) (room : Nat) (head : LoopHead) (p p' : Playthrough) : Prop where
  stream : p.stream.Abreast image room p'.stream
  loopHead_eq : p.loopHead = head
  loopHead_eq' : p'.loopHead = head

/-- Two steps that do and tell the same, and leave tracks abreast. -/
structure Step.Alike (image : List UInt8) (room : Nat) (head : LoopHead) (s s' : Step) : Prop where
  result_eq : s'.result = s.result
  writes_eq : s'.writes = s.writes
  lastUnknown?_eq : s'.track.lastUnknown? = s.track.lastUnknown?
  track : s.track.Abreast image room head s'.track

variable {image : List UInt8} {room offset : Nat} {head : LoopHead} {p p' : Playthrough}

theorem Abreast.symm (h : p.Abreast image room head p') : p'.Abreast image room head p :=
  ⟨h.stream.symm, h.loopHead_eq', h.loopHead_eq⟩

theorem Abreast.refill_left (h : p.Abreast image room head p') (clock : SampleClock) :
    (p.refill clock).2.1.Abreast image room head p' := by
  obtain ⟨done, stream, hrefill, hstream⟩ := h.stream.refill_left
  simp only [Playthrough.refill, hrefill]
  exact ⟨hstream, h.loopHead_eq, h.loopHead_eq'⟩

theorem Abreast.refill (h : p.Abreast image room head p') (clock clock' : SampleClock) :
    (p.refill clock).2.1.Abreast image room head (p'.refill clock').2.1 :=
  ((h.refill_left clock).symm.refill_left clock').symm

theorem Abreast.loadMetadata_left (h : p.Abreast image room head p') :
    p.loadMetadata.2.1.Abreast image room head p' := by
  obtain ⟨c, hs, -⟩ := h.stream.standAt
  obtain ⟨gd3, notices, hload⟩ := loadMetadata_of_standsAt hs
  rw [hload]
  exact ⟨h.stream, h.loopHead_eq, h.loopHead_eq'⟩

theorem Abreast.loadMetadata (h : p.Abreast image room head p') :
    p.loadMetadata.2.1.Abreast image room head p'.loadMetadata.2.1 :=
  h.loadMetadata_left.symm.loadMetadata_left.symm

theorem Abreast.takeUnknown (h : p.Abreast image room head p') :
    p.takeUnknown.2.Abreast image room head p'.takeUnknown.2 :=
  ⟨h.stream, h.loopHead_eq, h.loopHead_eq'⟩

private theorem alike_passOver (h : p.Abreast image room head p') (hunknown : p'.lastUnknown? = p.lastUnknown?)
    (clock clock' : SampleClock) (count : UInt32) (notices : List Notice) :
    Step.Alike image room head (p.passOver clock count notices) (p'.passOver clock' count notices) := by
  have hdiscard := uniform_discard count h.stream
  unfold passOver
  generalize p.stream.discard count = r at hdiscard ⊢
  generalize p'.stream.discard count = r' at hdiscard ⊢
  cases hdiscard with
  | ok _ hstream => exact ⟨rfl, rfl, hunknown, hstream, h.loopHead_eq, h.loopHead_eq'⟩
  | error e hstream => exact ⟨rfl, rfl, hunknown, hstream, h.loopHead_eq, h.loopHead_eq'⟩

/-- Going back brings both streams to the loop point, each with as many of the copied bytes as it has room for. -/
private theorem alike_restart (hcopy : head.CopyOf image offset) (h : p.Abreast image room head p')
    (hunknown : p'.lastUnknown? = p.lastUnknown?) (clock clock' : SampleClock) :
    Step.Alike image room head (p.restart clock) (p'.restart clock') := by
  obtain ⟨c, hs, hs'⟩ := h.stream.standAt
  obtain ⟨t, hinject, ht, hroom, -, -, hpos⟩ :=
    LoopHead.inject_of_copyOf (s := p.stream.reset) hcopy hs.source_eq hs.capacity_pos
  obtain ⟨t', hinject', ht', hroom', -, -, hpos'⟩ :=
    LoopHead.inject_of_copyOf (s := p'.stream.reset) hcopy hs'.source_eq hs'.capacity_pos
  have hcap : t.capacity = room := hroom.trans h.stream.capacity_eq
  have hcap' : t'.capacity = room := hroom'.trans h.stream.capacity_eq'
  have hcmd : t'.cmdPos = t.cmdPos := by
    rw [hpos, hpos', ← hroom, ← hroom', hcap, hcap']
  simp only [restart, h.loopHead_eq, h.loopHead_eq', hinject, hinject']
  exact ⟨rfl, rfl, hunknown, ⟨⟨offset, ht, ht'⟩, hcap, hcap', hcmd⟩, rfl, rfl⟩

private theorem alike_perform (hcopy : head.CopyOf image offset) (h : p.Abreast image room head p')
    (hunknown : p'.lastUnknown? = p.lastUnknown?) (clock clock' : SampleClock) (position : UInt32) (c : Command) :
    Step.Alike image room head (p.perform clock position c) (p'.perform clock' position c) := by
  cases c with
  | write address data => exact ⟨rfl, rfl, hunknown, h⟩
  | wait samples => exact ⟨rfl, rfl, hunknown, h⟩
  | skip operands => exact alike_passOver h hunknown clock clock' _ _
  | block kind size => exact alike_passOver h hunknown clock clock' _ _
  | endOfData => exact alike_restart hcopy h hunknown clock clock'
  | unknown opcode => exact ⟨rfl, rfl, rfl, h.stream, h.loopHead_eq, h.loopHead_eq'⟩

/-- Tracks abreast take one step, up to what was noted before, and are abreast after it. -/
theorem Abreast.step (hcopy : head.CopyOf image offset) (h : p.Abreast image room head p')
    (hunknown : p'.lastUnknown? = p.lastUnknown?) (clock clock' : SampleClock) :
    Step.Alike image room head (p.step clock) (p'.step clock') := by
  have hfetch := uniform_fetch h.stream
  unfold Playthrough.step
  rw [h.stream.cmdPos_eq]
  generalize p.stream.fetch = r at hfetch ⊢
  generalize p'.stream.fetch = r' at hfetch ⊢
  cases hfetch with
  | @ok t t' c hstream =>
    have ht : ({ p with stream := t } : Playthrough).Abreast image room head { p' with stream := t' } :=
      ⟨hstream, h.loopHead_eq, h.loopHead_eq'⟩
    exact alike_perform hcopy ht hunknown clock clock' _ c
  | error e hstream => exact ⟨rfl, rfl, hunknown, hstream, h.loopHead_eq, h.loopHead_eq'⟩

end Playthrough

end VgmPlayback
