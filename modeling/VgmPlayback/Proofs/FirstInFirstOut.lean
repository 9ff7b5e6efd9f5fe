import VgmPlayback.Proofs.StreamCapacity
import VgmPlayback.Proofs.StreamReading

/-!
# First in, first out

A `Reader` is a command stream and the copy of its loop's first bytes.  However it is used:

* (room) The queue never holds more bytes than it has room for, over any source at all (`CommandStream.Fitting`).
* (place) Over an image in memory the stream stands at a place of the image (`Reader.Sound.use`), and the copied bytes
  are those at the place where they were copied.

So no byte is lost and none comes twice: after any row of uses the queue holds the bytes between the next one to be
consumed and the source's cursor (`Reader.inOrder_useAll`).
-/

namespace VgmPlayback

namespace CommandStream

variable {s : CommandStream} {image : List UInt8} {c : Nat}

/-! ### Room -/

/-- An action that leaves no more in the queue than there is room for, if there was no more before. -/
def Fitting {ε α : Type} (act : EStateM ε CommandStream α) : Prop :=
  ∀ s, s.pending.size ≤ s.capacity → (leftBy (act s)).pending.size ≤ (leftBy (act s)).capacity

theorem fitting_pure {ε α : Type} (a : α) : Fitting (pure a : EStateM ε CommandStream α) := fun _ hs => hs

theorem Fitting.bind {ε α β : Type} {act : EStateM ε CommandStream α} {next : α → EStateM ε CommandStream β}
    (h : Fitting act) (hnext : ∀ a, Fitting (next a)) : Fitting (act >>= next) := by
  intro s hs
  have hact := h s hs
  simp only [Bind.bind, EStateM.bind]
  cases heq : act s with
  | error e s' =>
    rw [heq] at hact
    exact hact
  | ok a s' =>
    rw [heq] at hact
    exact hnext a s' hact

theorem fitting_refill : Fitting refill := by
  intro s hs
  unfold refill
  split
  · exact hs
  · rename_i hroom
    have hroom : s.pending.size < s.capacity := by
      simp only [isFull, Bool.or_eq_true, decide_eq_true_eq, not_or, Nat.not_le] at hroom
      exact hroom.1
    split
    · exact hroom
    · exact hs
    · exact hs

theorem fitting_fill : Fitting fill := by
  intro s hs
  have hfilled := refillUpTo_keeps fitting_refill (s.capacity - s.pending.size) hs
  unfold fill
  cases hfill : refillUpTo (s.capacity - s.pending.size) s <;> rw [hfill] at hfilled <;> exact hfilled

theorem fitting_consume : Fitting consume := by
  intro s hs
  have hready : Fitting fun s : CommandStream => if s.pending.isEmpty then refill s else .ok true s := by
    intro s hs
    dsimp only
    split
    · exact fitting_refill s hs
    · exact hs
  have hready := hready s hs
  unfold consume
  dsimp only at hready
  cases hrefill : if s.pending.isEmpty then refill s else .ok true s with
  | error e s' =>
    rw [hrefill] at hready
    exact hready
  | ok done s' =>
    rw [hrefill] at hready
    have hready : s'.pending.size ≤ s'.capacity := hready
    dsimp only
    cases hpop : s'.pending.pop? with
    | none => exact hready
    | some r =>
      have hsize := Fifo.size_of_pop? hpop
      show r.2.size ≤ s'.capacity
      omega

theorem relates_fitting : Relates fun act _ => Fitting act := ⟨fitting_pure, fitting_consume, Fitting.bind⟩

theorem fitting_discard (count : UInt32) : Fitting (discard count) := by
  intro s hs
  have hkept : (s.pending.drop (min count.toNat s.pending.size)).size ≤ s.capacity := by
    rw [Fifo.size_drop]
    omega
  unfold discard
  dsimp only
  split
  · exact hs
  · split <;> exact hkept

theorem fitting_inject (head : LoopHead) : Fitting head.inject := by
  intro s hs
  have hpushed : (head.copied.take s.capacity).size ≤ s.capacity := by
    rw [Fifo.size_take]
    exact Nat.min_le_left _ _
  unfold LoopHead.inject
  dsimp only
  split <;> exact hpushed

/-! ### Place -/

/-- The stream stands at some place of the image. -/
def Stands (image : List UInt8) (s : CommandStream) : Prop := s.StandsAt image s.cursor

theorem StandsAt.stands (h : s.StandsAt image c) : s.Stands image := by
  rw [Stands, h.cursor_eq]
  exact h

/-- What is read off the image moves the stream on, also when the image ends before. -/
theorem Agrees.exists_after {α : Type} {act : EStateM FormatError CommandStream α} {parse : ByteParser α}
    (h : Agrees act parse) (hs : s.StandsAt image c) : ∃ n, After image c n s (leftBy (act s)) := by
  have hact := h hs
  split at hact
  · obtain ⟨s', heq, hafter⟩ := hact
    rw [heq]
    exact ⟨_, hafter⟩
  · obtain ⟨n, s', heq, hafter⟩ := hact
    rw [heq]
    exact ⟨n, hafter⟩

theorem Agrees.stands {α : Type} {act : EStateM FormatError CommandStream α} {parse : ByteParser α}
    (h : Agrees act parse) (hs : s.Stands image) : (leftBy (act s)).Stands image := by
  obtain ⟨n, hafter⟩ := h.exists_after hs
  exact hafter.standsAt.stands

theorem StandsAt.exists_after_discard (h : s.StandsAt image c) (count : UInt32) :
    ∃ n, After image c n s (leftBy (discard count s)) := by
  by_cases hle : count.toNat ≤ image.length - c
  · obtain ⟨s', heq, hafter⟩ := h.discard_of_le hle
    rw [heq]
    exact ⟨_, hafter⟩
  · rw [h.discard_of_lt (Nat.lt_of_not_le hle)]
    exact ⟨0, h.after_zero⟩

theorem Stands.discard (hs : s.Stands image) (count : UInt32) : (leftBy (discard count s)).Stands image := by
  obtain ⟨n, hafter⟩ := StandsAt.exists_after_discard hs count
  exact hafter.standsAt.stands

/-- An emptied stream stands where the source does. -/
theorem Stands.standsAt_clear (hs : s.Stands image) : s.clear.StandsAt image s.source.pos where
  source_eq := by
    show s.source = .inImage image s.source.pos
    rw [hs.source_eq, Source.pos_inImage]
  pending_eq := rfl
  capacity_pos := hs.capacity_pos

end CommandStream

open CommandStream

/-- A stream of command bytes and the copy of the first ones after the loop point. -/
structure Reader where
  stream : CommandStream
  loopHead : LoopHead

namespace Reader

variable {r : Reader} {image : List UInt8}

/-- The uses of a reader. -/
inductive Use where
  | refill
  | fill
  | consume
  | consume16
  | consume32
  | discard (count : UInt32)
  | clear
  | snapshot (offset : Nat)
  | inject
deriving DecidableEq, Repr

/-- A reader of an image in memory that has read nothing ahead and copied nothing, with the source's cursor at `k`. -/
def fresh (image : List UInt8) (k capacity headCapacity : Nat) : Reader where
  stream := .ofSource (.inImage image k) capacity
  loopHead := .empty headCapacity

/-- The reader as one use leaves it, whether or not that succeeds. -/
def use (r : Reader) : Use → Reader
  | .refill => { r with stream := leftBy (r.stream.refill) }
  | .fill => { r with stream := leftBy (r.stream.fill) }
  | .consume => { r with stream := leftBy (r.stream.consume) }
  | .consume16 => { r with stream := leftBy (r.stream.consume16) }
  | .consume32 => { r with stream := leftBy (r.stream.consume32) }
  | .discard count => { r with stream := leftBy (r.stream.discard count) }
  | .clear => { r with stream := r.stream.clear }
  | .snapshot offset =>
    let (_, loopHead, source) := r.loopHead.snapshot offset r.stream.source
    { stream := { r.stream with source }, loopHead }
  | .inject => { r with stream := leftBy (r.loopHead.inject r.stream) }

/-- The reader after these uses. -/
def useAll (r : Reader) (uses : List Use) : Reader := uses.foldl use r

/-- What each use of a reader keeps. -/
structure Sound (image : List UInt8) (r : Reader) : Prop where
  stands : r.stream.Stands image
  size_le : r.stream.pending.size ≤ r.stream.capacity
  copyOf : r.loopHead.CopyOf image r.loopHead.offset

theorem sound_fresh (image : List UInt8) (k capacity headCapacity : Nat) :
    (fresh image k capacity headCapacity).Sound image where
  stands := ⟨rfl, rfl, Nat.lt_of_lt_of_le Nat.zero_lt_one (Nat.le_max_right capacity 1)⟩
  size_le := Nat.zero_le _
  copyOf := ⟨rfl, rfl⟩

theorem Sound.use (h : r.Sound image) (u : Use) : (r.use u).Sound image := by
  obtain ⟨hstands, hsize, hcopy⟩ := h
  cases u with
  | refill =>
    obtain ⟨done, s', heq, hafter, -⟩ := hstands.refill
    refine ⟨?_, fitting_refill _ hsize, hcopy⟩
    simp only [Reader.use, heq]
    exact hafter.standsAt.stands
  | fill =>
    obtain ⟨s', heq, hfilled, -⟩ := hstands.fill
    refine ⟨?_, fitting_fill _ hsize, hcopy⟩
    simp only [Reader.use, heq]
    exact hfilled.stands
  | consume => exact ⟨agrees_consume.stands hstands, fitting_consume _ hsize, hcopy⟩
  | consume16 => exact ⟨Agrees.stands relates_agrees.consume16 hstands, relates_fitting.consume16 _ hsize, hcopy⟩
  | consume32 => exact ⟨Agrees.stands relates_agrees.consume32 hstands, relates_fitting.consume32 _ hsize, hcopy⟩
  | discard count => exact ⟨hstands.discard count, fitting_discard count _ hsize, hcopy⟩
  | clear => exact ⟨hstands.standsAt_clear.stands, Nat.zero_le _, hcopy⟩
  | snapshot offset =>
    obtain ⟨head', heq, hcopied, -⟩ :=
      LoopHead.snapshot_inImage r.loopHead image offset (r.stream.cursor + r.stream.pending.size)
    rw [← hstands.source_eq] at heq
    simp only [Reader.use, heq]
    refine ⟨hstands, hsize, ?_⟩
    rw [hcopied.offset_eq]
    exact hcopied
  | inject =>
    obtain ⟨s', heq, hs', -⟩ := LoopHead.inject_of_copyOf hcopy hstands.source_eq hstands.capacity_pos
    refine ⟨?_, fitting_inject _ _ hsize, hcopy⟩
    simp only [Reader.use, heq]
    exact hs'.stands

theorem Sound.useAll (h : r.Sound image) (uses : List Use) : (r.useAll uses).Sound image := by
  induction uses generalizing r with
  | nil => exact h
  | cons u uses ih => exact ih (h.use u)

private theorem capacity_use (h : r.Sound image) (u : Use) :
    (r.use u).stream.capacity = r.stream.capacity ∧ (r.use u).loopHead.capacity = r.loopHead.capacity := by
  cases u with
  | refill => exact ⟨leavesCapacity_iff.1 (steady_refill _), rfl⟩
  | fill => exact ⟨leavesCapacity_iff.1 (steady_fill _), rfl⟩
  | consume => exact ⟨leavesCapacity_iff.1 (steady_consume _), rfl⟩
  | consume16 => exact ⟨leavesCapacity_iff.1 (steady_consume16 _), rfl⟩
  | consume32 => exact ⟨leavesCapacity_iff.1 (steady_consume32 _), rfl⟩
  | discard count => exact ⟨leavesCapacity_iff.1 (steady_discard count _), rfl⟩
  | clear => exact ⟨rfl, rfl⟩
  | snapshot offset =>
    obtain ⟨head', heq, -, -, hcapacity⟩ :=
      LoopHead.snapshot_inImage r.loopHead image offset (r.stream.cursor + r.stream.pending.size)
    rw [← h.stands.source_eq] at heq
    have huse : r.use (.snapshot offset) = { r with loopHead := head' } := by simp only [Reader.use, heq]
    rw [huse]
    exact ⟨rfl, hcapacity⟩
  | inject => exact ⟨leavesCapacity_iff.1 (steady_inject _ _), rfl⟩

/-- The queue holds the bytes of the image between the next byte to be consumed and the source's cursor, and no more
than it has room for.  Consuming gives the next byte, and fails exactly at the end of the image, where it changes
nothing; whatever else is done moves the place of the next byte where it is told to, or not at all. -/
structure InOrder (image : List UInt8) (r : Reader) : Prop where
  size_le_capacity : r.stream.pending.size ≤ r.stream.capacity
  size_le_pos : r.stream.pending.size ≤ r.stream.source.pos
  pending_eq : r.stream.pending.toList = image.extract r.stream.cursor r.stream.source.pos
  consume_ok : ∀ hlt : r.stream.cursor < image.length, ∃ s', r.stream.consume = .ok image[r.stream.cursor] s' ∧
    s'.cursor = r.stream.cursor + 1
  consume_error : image.length ≤ r.stream.cursor → r.stream.consume = .error .unexpectedEof r.stream
  refill : ∃ done s', r.stream.refill = .ok done s' ∧ s'.cursor = r.stream.cursor ∧
    r.stream.source.pos ≤ s'.source.pos ∧ s'.source.pos ≤ r.stream.source.pos + 1
  fill : ∃ s', r.stream.fill = .ok () s' ∧ s'.cursor = r.stream.cursor
  discard : ∀ count s', r.stream.discard count = .ok () s' → s'.cursor = r.stream.cursor + count.toNat
  clear : r.stream.clear.cursor = r.stream.source.pos
  snapshot : ∀ offset, ∃ loopHead, r.loopHead.snapshot offset r.stream.source = (.ok (), loopHead, r.stream.source) ∧
    loopHead.offset = offset
  inject : ∃ s', r.loopHead.inject r.stream = .ok () s' ∧ s'.cursor = r.loopHead.offset

theorem Sound.inOrder (h : r.Sound image) : r.InOrder image where
  size_le_capacity := h.size_le
  size_le_pos := by
    rw [h.stands.source_eq, Source.pos_inImage]
    exact Nat.le_add_left _ _
  pending_eq := by
    rw [h.stands.pending_eq, List.extract_eq_take_drop, h.stands.source_eq, Source.pos_inImage, Nat.add_sub_cancel_left]
  consume_ok hlt := by
    obtain ⟨s', heq, hafter⟩ := h.stands.consume_of_lt hlt
    exact ⟨s', heq, hafter.standsAt.cursor_eq⟩
  consume_error hle := h.stands.consume_of_le hle
  refill := by
    have hpos : r.stream.source.pos = r.stream.cursor + r.stream.pending.size := by
      rw [h.stands.source_eq, Source.pos_inImage]
    obtain ⟨done, s', heq, hafter, -⟩ := h.stands.refill
    refine ⟨done, s', heq, hafter.standsAt.cursor_eq, ?_⟩
    -- what has been read tells how far the source has moved
    rcases h.stands.refill_eq with ⟨heq', -⟩ | ⟨hlt, heq'⟩ <;> rw [heq'] at heq <;> cases heq
    · omega
    · simp only [Source.pos_inImage]
      omega
  fill := by
    obtain ⟨s', heq, hfilled, -⟩ := h.stands.fill
    exact ⟨s', heq, hfilled.cursor_eq⟩
  discard count s' hdiscard := by
    by_cases hle : count.toNat ≤ image.length - r.stream.cursor
    · obtain ⟨s₁, heq, hafter⟩ := h.stands.discard_of_le hle
      rw [heq] at hdiscard
      cases hdiscard
      exact hafter.standsAt.cursor_eq
    · rw [h.stands.discard_of_lt (Nat.lt_of_not_le hle)] at hdiscard
      cases hdiscard
  clear := h.stands.standsAt_clear.cursor_eq
  snapshot offset := by
    obtain ⟨loopHead, heq, hcopied, -⟩ :=
      LoopHead.snapshot_inImage r.loopHead image offset (r.stream.cursor + r.stream.pending.size)
    rw [← h.stands.source_eq] at heq
    exact ⟨loopHead, heq, hcopied.offset_eq⟩
  inject := by
    obtain ⟨s', heq, hs', -⟩ := LoopHead.inject_of_copyOf h.copyOf h.stands.source_eq h.stands.capacity_pos
    exact ⟨s', heq, hs'.cursor_eq⟩

private theorem capacity_useAll (h : r.Sound image) (uses : List Use) :
    (r.useAll uses).stream.capacity = r.stream.capacity ∧
      (r.useAll uses).loopHead.capacity = r.loopHead.capacity := by
  induction uses generalizing r with
  | nil => exact ⟨rfl, rfl⟩
  | cons u uses ih =>
    obtain ⟨hstream, hhead⟩ := capacity_use h u
    obtain ⟨hstream', hhead'⟩ := ih (h.use u)
    exact ⟨hstream'.trans hstream, hhead'.trans hhead⟩

/-- Whatever the image, and whatever room there is in the queue and for the copy: after any row of uses the room is the
same, and the queue and the source are in order. -/
theorem inOrder_useAll (image : List UInt8) (k capacity headCapacity : Nat) (uses : List Use) :
    ((fresh image k capacity headCapacity).useAll uses).stream.capacity = max capacity 1 ∧
    ((fresh image k capacity headCapacity).useAll uses).loopHead.capacity = headCapacity ∧
    ((fresh image k capacity headCapacity).useAll uses).InOrder image := by
  have hsound := sound_fresh image k capacity headCapacity
  obtain ⟨hstream, hhead⟩ := capacity_useAll hsound uses
  exact ⟨hstream, hhead, (hsound.useAll uses).inOrder⟩

end Reader

end VgmPlayback
