import VgmPlayback.Proofs.FailingMedia
import VgmPlayback.Proofs.Transparency

/-!
# Playing from media that fail

A stream is in step with its medium when its source is and its queue holds the bytes that the source has passed last
(`CommandStream.InStep`).  Whatever the medium does, refilling, consuming, discarding and going back to the loop point
keep it so; an action that fails on the way leaves the stream in step at a later place (`CommandStream.Reads`), and a
refill that fails leaves everything but the planned failures as it was (`CommandStream.InStep.refill_cases`).

Hence nothing that a track does, and no failure, comes between it and the image: what it holds, has copied and will
decode are bytes of the image at the places where it says they are (`Playthrough.verbatim_of_start`).
-/

namespace VgmPlayback

namespace CommandStream

/-- The source is in step, and the pending bytes are those that it has passed last. -/
structure InStep (data : List UInt8) (s : CommandStream) : Prop where
  source : s.source.InStep data
  size_le : s.pending.size ≤ s.source.pos
  prefix_drop : s.pending.toList <+: data.drop s.cursor

/-- `s'` is what `s` is `n` bytes later. -/
structure Later (data : List UInt8) (n : Nat) (s s' : CommandStream) : Prop where
  inStep : s'.InStep data
  cursor_eq : s'.cursor = s.cursor + n

/-- The stream with other failures planned. -/
def withFaults (s : CommandStream) (faults : List Fault) : CommandStream :=
  { s with source := s.source.withFaults faults }

variable {data : List UInt8} {n : Nat} {s s' s'' : CommandStream}

theorem InStep.withFaults (h : s.InStep data) (faults : List Fault) : (s.withFaults faults).InStep data :=
  ⟨h.source.withFaults faults, h.size_le, h.prefix_drop⟩

theorem InStep.later_zero (h : s.InStep data) : Later data 0 s s := ⟨h, rfl⟩

theorem Later.trans {m : Nat} (h : Later data n s s') (h' : Later data m s' s'') : Later data (n + m) s s'' := by
  refine ⟨h'.inStep, ?_⟩
  rw [h'.cursor_eq, h.cursor_eq, Nat.add_assoc]

/-! ### Refilling -/

private theorem InStep.push {b : UInt8} {source : Source} (h : s.InStep data) (hget : data[s.source.pos]? = some b)
    (hsource : source.InStep data) (hpos : source.pos = s.source.pos + 1) :
    Later data 0 s { s with source, pending := s.pending.push b } := by
  have hle := h.size_le
  have hcursor : CommandStream.cursor { s with source, pending := s.pending.push b } = s.cursor := by
    simp only [cursor, hpos, Fifo.push]
    omega
  refine ⟨⟨hsource, ?_, ?_⟩, hcursor⟩
  · simp only [hpos, Fifo.push]
    omega
  · rw [hcursor]
    show (s.pending.push b).toList <+: data.drop s.cursor
    rw [Fifo.toList_push]
    refine prefix_append_of_drop h.prefix_drop ?_
    have hplace : s.cursor + s.pending.toList.length = s.source.pos := by
      rw [← Fifo.size_eq_length, cursor]
      omega
    rw [List.drop_drop, hplace]
    exact singleton_prefix_drop hget

/-- A refill does not move the stream.  If it fails, only the planned failures are other ones afterwards. -/
theorem InStep.refill_cases (h : s.InStep data) :
    (∃ done s', refill s = .ok done s' ∧ Later data 0 s s') ∨
    ∃ e faults, refill s = .error e (s.withFaults faults) := by
  unfold refill
  split
  · exact .inl ⟨true, s, rfl, h.later_zero⟩
  · rcases h.source.read_cases with ⟨b, source, hread, hget, hsource, hpos⟩ | ⟨faults, hread⟩ | ⟨e, faults, hread⟩
    · rw [hread]
      exact .inl ⟨false, _, rfl, h.push hget hsource hpos⟩
    · rw [hread]
      exact .inl ⟨true, _, rfl, h.withFaults faults, rfl⟩
    · rw [hread]
      exact .inr ⟨e, faults, rfl⟩

private theorem InStep.refillUpTo (n : Nat) (h : s.InStep data) (hrefill : refillUpTo n s = .ok () s') :
    Later data 0 s s' := by
  induction n generalizing s with
  | zero =>
    cases hrefill
    exact h.later_zero
  | succ n ih =>
    unfold CommandStream.refillUpTo at hrefill
    rcases h.refill_cases with ⟨done, s₁, heq, hlater⟩ | ⟨e, faults, heq⟩
    · rw [heq] at hrefill
      cases done with
      | true =>
        cases hrefill
        exact hlater
      | false => exact hlater.trans (ih hlater.inStep hrefill)
    · rw [heq] at hrefill
      cases hrefill

theorem InStep.fill (h : s.InStep data) (hfill : fill s = .ok () s') : Later data 0 s s' := by
  unfold CommandStream.fill at hfill
  cases heq : CommandStream.refillUpTo (s.capacity - s.pending.size) s with
  | error e s₁ =>
    rw [heq] at hfill
    cases hfill
  | ok _ s₁ =>
    rw [heq] at hfill
    cases hfill
    have hlater := h.refillUpTo _ heq
    exact ⟨⟨hlater.inStep.source, hlater.inStep.size_le, hlater.inStep.prefix_drop⟩, hlater.cursor_eq⟩

/-! ### Consuming -/

private theorem InStep.pop {b : UInt8} {q : Fifo} (h : s.InStep data) (hpop : s.pending.pop? = some (b, q)) :
    data[s.cursor]? = some b ∧
      Later data 1 s { s with pending := q, bufferPos := s.bufferPos + 1, cmdPos := s.cmdPos + 1 } := by
  have hlist := Fifo.toList_of_pop? hpop
  have hpre := h.prefix_drop
  rw [hlist] at hpre
  have hsize := Fifo.size_of_pop? hpop
  have hle := h.size_le
  have hcursor : s.source.pos - q.size = s.cursor + 1 := by
    rw [cursor]
    omega
  refine ⟨getElem?_of_prefix_drop hpre, ⟨h.source, ?_, ?_⟩, hcursor⟩
  · show q.size ≤ s.source.pos
    omega
  · show q.toList <+: data.drop (s.source.pos - q.size)
    rw [hcursor]
    exact prefix_drop_succ hpre

/-- Where the action succeeds, it has taken from the stream what the parser finds in the image from the cursor on;
where it fails, the stream is in step all the same. -/
def Reads {α : Type} (act : EStateM FormatError CommandStream α) (parse : ByteParser α) : Prop :=
  ∀ {data : List UInt8} {s : CommandStream}, s.InStep data →
    match act s with
    | .ok a s' => ∃ n, parse (data.drop s.cursor) = some (a, n) ∧ Later data n s s'
    | .error _ s' => ∃ n, Later data n s s'

theorem InStep.consume_cases (h : s.InStep data) :
    (∃ b s', consume s = .ok b s' ∧ data[s.cursor]? = some b ∧ Later data 1 s s') ∨
    ∃ e s', consume s = .error e s' ∧ Later data 0 s s' := by
  have htopped : (∃ done s', (if s.pending.isEmpty then refill s else .ok true s) = .ok done s' ∧ Later data 0 s s') ∨
      ∃ e faults, (if s.pending.isEmpty then refill s else .ok true s) = .error e (s.withFaults faults) := by
    by_cases hempty : s.pending.isEmpty = true
    · rw [if_pos hempty]
      exact h.refill_cases
    · rw [if_neg hempty]
      exact .inl ⟨true, s, rfl, h.later_zero⟩
  unfold consume
  rcases htopped with ⟨done, s₁, heq, hlater⟩ | ⟨e, faults, heq⟩
  · rw [heq]
    dsimp only
    cases hpop : s₁.pending.pop? with
    | none => exact .inr ⟨_, s₁, rfl, hlater⟩
    | some r =>
      obtain ⟨hget, hpopped⟩ := hlater.inStep.pop (b := r.1) (q := r.2) hpop
      rw [hlater.cursor_eq] at hget
      exact .inl ⟨r.1, _, rfl, hget, hlater.trans hpopped⟩
  · rw [heq]
    exact .inr ⟨.io e, _, rfl, h.withFaults faults, rfl⟩

theorem reads_done {α : Type} (a : α) : Reads (pure a) (ByteParser.done a) := fun h => ⟨0, rfl, h.later_zero⟩

theorem reads_consume : Reads consume ByteParser.byte := by
  intro data s h
  rcases h.consume_cases with ⟨b, s', heq, hget, hlater⟩ | ⟨e, s', heq, hlater⟩
  · rw [heq]
    refine ⟨1, ?_, hlater⟩
    obtain ⟨hlt, rfl⟩ := List.getElem?_eq_some_iff.1 hget
    rw [List.drop_eq_getElem_cons hlt]
    rfl
  · rw [heq]
    exact ⟨0, hlater⟩

theorem Reads.bind {α β : Type} {act : EStateM FormatError CommandStream α} {parse : ByteParser α}
    {next : α → EStateM FormatError CommandStream β} {parseNext : α → ByteParser β} (h : Reads act parse)
    (hnext : ∀ a, Reads (next a) (parseNext a)) : Reads (act >>= next) (parse.andThen parseNext) := by
  intro data s hs
  have hact := h hs
  cases heq : act s with
  | error e s' =>
    have hrun : (act >>= next) s = .error e s' := by simp only [Bind.bind, EStateM.bind, heq]
    rw [heq] at hact
    rw [hrun]
    exact hact
  | ok a s' =>
    have hrun : (act >>= next) s = next a s' := by simp only [Bind.bind, EStateM.bind, heq]
    rw [heq] at hact
    obtain ⟨n, hparse, hlater⟩ := hact
    have hthen := hnext a hlater.inStep
    rw [hrun]
    cases heq' : next a s' with
    | error e s'' =>
      rw [heq'] at hthen
      obtain ⟨m, hlater'⟩ := hthen
      exact ⟨n + m, hlater.trans hlater'⟩
    | ok b s'' =>
      rw [heq'] at hthen
      obtain ⟨m, hparse', hlater'⟩ := hthen
      refine ⟨n + m, ?_, hlater.trans hlater'⟩
      rw [hlater.cursor_eq, ← List.drop_drop] at hparse'
      simp only [ByteParser.andThen, hparse, hparse', Option.map_some]

theorem relates_reads : Relates Reads := ⟨reads_done, reads_consume, Reads.bind⟩

/-- The bytes that `n` calls of `consume` give, one after the other, and the stream afterwards.  A call that fails
gives none. -/
def consumed : Nat → CommandStream → List UInt8 × CommandStream
  | 0, s => ([], s)
  | n + 1, s =>
    match consume s with
    | .ok b s => (b :: (consumed n s).1, (consumed n s).2)
    | .error _ s => consumed n s

/-- However often consuming fails meanwhile, the bytes come as they stand in the image. -/
theorem InStep.consumed_prefix_drop (n : Nat) (h : s.InStep data) : (consumed n s).1 <+: data.drop s.cursor := by
  induction n generalizing s with
  | zero => exact List.nil_prefix
  | succ n ih =>
    unfold consumed
    rcases h.consume_cases with ⟨b, s', heq, hget, hlater⟩ | ⟨e, s', heq, hlater⟩
    · rw [heq]
      have hrest := ih hlater.inStep
      rw [hlater.cursor_eq, ← List.drop_drop] at hrest
      exact prefix_append_of_drop (singleton_prefix_drop hget) hrest
    · rw [heq]
      have hrest := ih hlater.inStep
      rw [hlater.cursor_eq] at hrest
      exact hrest

/-! ### Discarding and going back -/

/-- Discarding moves the stream by as many bytes as are discarded, or it changes nothing. -/
theorem InStep.discard_cases (h : s.InStep data) (count : UInt32) :
    (∃ s', discard count s = .ok () s' ∧ Later data count.toNat s s') ∨ ∃ e, discard count s = .error e s := by
  have hle := h.size_le
  unfold discard
  dsimp only
  split
  · exact .inr ⟨_, rfl⟩
  · left
    generalize count.toNat = n
    by_cases hqueue : n ≤ s.pending.size
    · -- all of it is in the queue, and the source stays
      rw [if_pos (Nat.sub_eq_zero_of_le hqueue), Nat.min_eq_left hqueue]
      have hcursor : s.source.pos - (s.pending.drop n).size = s.cursor + n := by
        rw [Fifo.size_drop, cursor]
        omega
      refine ⟨_, rfl, ⟨h.source, ?_, ?_⟩, hcursor⟩
      · show (s.pending.drop n).size ≤ s.source.pos
        rw [Fifo.size_drop]
        omega
      · show (s.pending.drop n).toList <+: data.drop (s.source.pos - (s.pending.drop n).size)
        obtain ⟨rest, hrest⟩ := h.prefix_drop
        rw [hcursor, ← List.drop_drop, ← hrest, Fifo.toList_drop]
        refine ⟨rest, ?_⟩
        rw [List.drop_append_of_le_length]
        rw [← Fifo.size_eq_length]
        exact hqueue
    · -- the queue is used up, and the source moves on behind what is left to discard
      obtain ⟨source, hseek, hsource, hpos⟩ := h.source.toOver.seek (s.source.pos + (n - s.pending.size))
      have hnil : (s.pending.drop (min n s.pending.size)).toList = [] := by
        rw [Fifo.toList_drop, List.drop_eq_nil_iff, ← Fifo.size_eq_length]
        omega
      have hsize : (s.pending.drop (min n s.pending.size)).size = 0 := by
        rw [Fifo.size_eq_length, hnil]
        rfl
      rw [if_neg (by omega), hseek]
      refine ⟨_, rfl, ⟨hsource, ?_, ?_⟩, ?_⟩
      · show (s.pending.drop _).size ≤ source.pos
        rw [hsize]
        exact Nat.zero_le _
      · show (s.pending.drop _).toList <+: _
        rw [hnil]
        exact List.nil_prefix
      · show source.pos - (s.pending.drop _).size = s.source.pos - s.pending.size + n
        rw [hsize, hpos]
        omega

end CommandStream

/-- Going back to the loop point brings the stream there, in step. -/
theorem LoopHead.inject_of_prefix_drop {data : List UInt8} {head : LoopHead} {s : CommandStream}
    (h : s.source.Over data) (hcopy : head.bytes <+: data.drop head.offset) :
    ∃ s', head.inject s = .ok () s' ∧ s'.InStep data ∧ s'.cursor = head.offset := by
  obtain ⟨source, hseek, hsource, hpos⟩ := h.seek (head.offset + (head.copied.take s.capacity).size)
  have hcursor : source.pos - (head.copied.take s.capacity).size = head.offset := by
    rw [hpos, Nat.add_sub_cancel]
  refine ⟨{ s with
    source
    pending := head.copied.take s.capacity
    bufferPos := 0
    cmdPos := UInt32.ofNat ((head.copied.take s.capacity).size - 1) }, ?_, ⟨hsource, ?_, ?_⟩, hcursor⟩
  · simp only [inject, CommandStream.clear, hseek]
  · show (head.copied.take s.capacity).size ≤ source.pos
    omega
  · show (head.copied.take s.capacity).toList <+: data.drop (source.pos - (head.copied.take s.capacity).size)
    rw [hcursor, Fifo.toList_take]
    exact (List.take_prefix _ _).trans hcopy

/-! ### Tracks -/

namespace Playthrough

/-- The stream is in step, and the copied bytes are those at the loop point. -/
structure InStep (data : List UInt8) (p : Playthrough) : Prop where
  stream : p.stream.InStep data
  offset_eq : p.loopHead.offset = p.header.loopStart
  copied : p.loopHead.bytes <+: data.drop p.loopHead.offset

/-- The track with other failures planned. -/
def withFaults (p : Playthrough) (faults : List Fault) : Playthrough :=
  { p with stream := p.stream.withFaults faults }

/-- The track and the clock after an operation, whether or not it succeeds. -/
def operate (p : Playthrough) (clock : SampleClock) : Operation → Playthrough × SampleClock
  | .step => ((p.step clock).track, (p.step clock).clock)
  | .refill => (p.refill clock).2
  | .loadMetadata => (p.loadMetadata.2.1, clock)

def operateAll (p : Playthrough) (clock : SampleClock) (ops : List Operation) : Playthrough × SampleClock :=
  ops.foldl (fun r op => r.1.operate r.2 op) (p, clock)

variable {data : List UInt8} {p : Playthrough}

private theorem inStep_of_start {source : Source} {capacity headCapacity : Nat} (h : source.Over data)
    (hstart : start source capacity headCapacity = .ok p) : p.InStep data := by
  unfold start at hstart
  cases hread : Header.read source with
  | error e s =>
    simp only [hread] at hstart
    cases hstart
  | ok header s₁ =>
    obtain ⟨s₂, hseek, hstep, hpos⟩ := (Header.inStep_of_read h hread).toOver.seek header.dataStart
    simp only [hread, hseek] at hstart
    have hempty : (CommandStream.ofSource s₂ capacity).InStep data := ⟨hstep, Nat.zero_le _, List.nil_prefix⟩
    cases hfill : CommandStream.fill (.ofSource s₂ capacity) with
    | error e stream =>
      simp only [hfill] at hstart
      cases hstart
    | ok _ stream =>
      have hfilled := (hempty.fill hfill).inStep
      simp only [hfill] at hstart
      rcases hsnapshot : (LoopHead.empty (min headCapacity stream.capacity)).snapshot header.loopStart
          stream.source with ⟨e | _, head, s₃⟩
      · rw [hsnapshot] at hstart
        cases hstart
      · rw [hsnapshot] at hstart
        cases hstart
        obtain ⟨hoffset, hcopied, hstep', hpos'⟩ := LoopHead.snapshot_of_inStep hfilled.source hsnapshot
        refine ⟨⟨hstep', ?_, ?_⟩, hoffset, by rw [hoffset]; exact hcopied⟩
        · show stream.pending.size ≤ s₃.pos
          rw [hpos']
          exact hfilled.size_le
        · show stream.pending.toList <+: data.drop (s₃.pos - stream.pending.size)
          rw [hpos']
          exact hfilled.prefix_drop

/-- A refill that fails leaves the track as it was, but for the failures still planned. -/
theorem InStep.refill_cases (h : p.InStep data) (clock : SampleClock) :
    (∃ done stream, p.refill clock = (.ok done, { p with stream }, ({ p with stream } : Playthrough).publish clock) ∧
      CommandStream.Later data 0 p.stream stream) ∨
    ∃ e faults, p.refill clock = (.error e, p.withFaults faults, clock) := by
  unfold refill
  rcases h.stream.refill_cases with ⟨done, stream, heq, hlater⟩ | ⟨e, faults, heq⟩
  · rw [heq]
    exact .inl ⟨done, stream, rfl, hlater⟩
  · rw [heq]
    exact .inr ⟨.io e, faults, rfl⟩

private theorem InStep.loadMetadata (h : p.InStep data) : p.loadMetadata.2.1.InStep data := by
  obtain ⟨hstep, hpos⟩ := Gd3.read_of_over h.stream.source.toOver p.header
  have hsize := h.stream.size_le
  have hpre := h.stream.prefix_drop
  rw [CommandStream.cursor, ← hpos] at hpre
  rw [← hpos] at hsize
  unfold Playthrough.loadMetadata
  dsimp only
  split
  · exact ⟨⟨hstep, hsize, hpre⟩, h.offset_eq, h.copied⟩
  · exact ⟨⟨hstep, hsize, hpre⟩, h.offset_eq, h.copied⟩

private theorem InStep.passOver (h : p.InStep data) (clock : SampleClock) (count : UInt32) (notices : List Notice) :
    (p.passOver clock count notices).track.InStep data := by
  unfold Playthrough.passOver
  rcases h.stream.discard_cases count with ⟨stream, heq, hlater⟩ | ⟨e, heq⟩
  · rw [heq]
    exact ⟨hlater.inStep, h.offset_eq, h.copied⟩
  · rw [heq]
    exact h

private theorem InStep.perform (h : p.InStep data) (clock : SampleClock) (position : UInt32) (c : Command) :
    (p.perform clock position c).track.InStep data := by
  cases c with
  | write address data => exact h
  | wait samples => exact h
  | skip operands => exact h.passOver clock _ _
  | block kind size => exact h.passOver clock _ _
  | unknown opcode => exact ⟨h.stream, h.offset_eq, h.copied⟩
  | endOfData =>
    obtain ⟨stream, hinject, hstep, -⟩ :=
      LoopHead.inject_of_prefix_drop (s := p.stream.reset) h.stream.source.toOver h.copied
    simp only [Playthrough.perform, restart, hinject]
    exact ⟨hstep, h.offset_eq, h.copied⟩

private theorem InStep.step (h : p.InStep data) (clock : SampleClock) : (p.step clock).track.InStep data := by
  have hreads := CommandStream.relates_reads.fetch h.stream
  unfold Playthrough.step
  cases hfetch : p.stream.fetch with
  | error e stream =>
    rw [hfetch] at hreads
    obtain ⟨n, hlater⟩ := hreads
    exact ⟨hlater.inStep, h.offset_eq, h.copied⟩
  | ok c stream =>
    rw [hfetch] at hreads
    obtain ⟨n, -, hlater⟩ := hreads
    have hmoved : ({ p with stream } : Playthrough).InStep data := ⟨hlater.inStep, h.offset_eq, h.copied⟩
    exact hmoved.perform clock _ c

theorem InStep.operate (h : p.InStep data) (clock : SampleClock) (op : Operation) :
    (p.operate clock op).1.InStep data := by
  cases op with
  | step => exact h.step clock
  | loadMetadata => exact h.loadMetadata
  | refill =>
    rcases h.refill_cases clock with ⟨done, stream, heq, hlater⟩ | ⟨e, faults, heq⟩
    · simp only [Playthrough.operate, heq]
      exact ⟨hlater.inStep, h.offset_eq, h.copied⟩
    · simp only [Playthrough.operate, heq]
      exact ⟨h.stream.withFaults faults, h.offset_eq, h.copied⟩

theorem InStep.operateAll (h : p.InStep data) (clock : SampleClock) (ops : List Operation) :
    (p.operateAll clock ops).1.InStep data := by
  induction ops generalizing p clock with
  | nil => exact h
  | cons op ops ih => exact ih (h.operate clock op) (p.operate clock op).2

/-- What a track holds, has copied and will decode are bytes of the image, at the places where it says they are, and a
refill that fails changes nothing but the failures still planned. -/
structure Verbatim (data : List UInt8) (p : Playthrough) : Prop where
  image_eq : p.stream.source.medium.data.toList = data
  head_eq : p.stream.source.medium.head = p.stream.source.pos
  size_le : p.stream.pending.size ≤ p.stream.source.pos
  pending_eq : p.stream.pending.toList = data.extract p.stream.cursor p.stream.source.pos
  offset_eq : p.loopHead.offset = p.header.loopStart
  copied : p.loopHead.bytes <+: data.drop p.header.loopStart
  consumed : ∀ n, (p.stream.consumed n).1 <+: data.drop p.stream.cursor
  fetched : ∀ c stream, p.stream.fetch = .ok c stream → ∃ n,
    ByteParser.commandHead (data.drop p.stream.cursor) = some (c, n) ∧ stream.cursor = p.stream.cursor + n
  refill_error : ∀ clock e p' clock', p.refill clock = (.error e, p', clock') →
    clock' = clock ∧ ∃ faults, p' = p.withFaults faults

theorem InStep.verbatim (h : p.InStep data) : p.Verbatim data where
  image_eq := h.stream.source.data_eq
  head_eq := h.stream.source.head_eq
  size_le := h.stream.size_le
  pending_eq := by
    have hle := h.stream.size_le
    have hlength : p.stream.source.pos - p.stream.cursor = p.stream.pending.toList.length := by
      rw [← Fifo.size_eq_length, CommandStream.cursor]
      omega
    rw [List.extract_eq_take_drop, hlength]
    exact List.prefix_iff_eq_take.1 h.stream.prefix_drop
  offset_eq := h.offset_eq
  copied := by
    rw [← h.offset_eq]
    exact h.copied
  consumed n := h.stream.consumed_prefix_drop n
  fetched c stream hfetch := by
    have hreads := CommandStream.relates_reads.fetch h.stream
    rw [hfetch] at hreads
    obtain ⟨n, hparse, hlater⟩ := hreads
    exact ⟨n, hparse, hlater.cursor_eq⟩
  refill_error clock e p' clock' hrefill := by
    rcases h.refill_cases clock with ⟨done, stream, heq, -⟩ | ⟨e', faults, heq⟩
    · rw [heq] at hrefill
      cases hrefill
    · rw [heq] at hrefill
      cases hrefill
      exact ⟨rfl, faults, rfl⟩

/-- A track that has started over a medium which only ever fails to read, stays true to the image of the medium,
whatever is done with it and whatever of that fails. -/
theorem verbatim_of_start {m : Medium} {source : Source} {capacity headCapacity : Nat} (hseek : m.seekFaults = [])
    (hsource : Source.ofMedium m = .ok source) (hstart : start source capacity headCapacity = .ok p)
    (clock : SampleClock) (ops : List Operation) : (p.operateAll clock ops).1.Verbatim m.data.toList := by
  have hover : source.Over m.data.toList := by
    simp only [Source.ofMedium, Medium.seek, hseek, Fault.fire] at hsource
    cases hsource
    exact ⟨rfl, rfl⟩
  exact ((inStep_of_start hover hstart).operateAll clock ops).verbatim

/-- The shortest header, a wait and the end, announced two bytes too long.  Transfers are short; reading is
interrupted inside the header, and fails at the last byte of the wait when it is read there for the second time. -/
private def faulty : Medium where
  data := List.toArray (List.replicate 0x40 0 ++ [0x61, 0x0A, 0x00, 0x66])
  phantom := 2
  chunk? := some 3
  readFaults := [
    { pos := 0x10, kind := .interrupted, times := 1, after := 0 },
    { pos := 0x42, kind := .other, times := 1, after := 1 }]

private def faultySource : Source := { medium := faulty, size := faulty.extent, pos := 0 }

/-- The track starts and its first step fails inside the wait. -/
private def failsInsideWait : Bool :=
  match start faultySource 2 1 with
  | .ok p => !(p.step {}).result.toBool && (p.step {}).track.stream.cursor == 0x42
  | .error _ => false

theorem verbatim_of_start_faulty : ∃ p, start faultySource 2 1 = .ok p ∧ (p.step {}).result.toBool = false ∧
    (p.step {}).track.stream.cursor = 0x42 ∧
    (p.operateAll {} [.step, .refill, .loadMetadata, .step, .step]).1.Verbatim faulty.data.toList := by
  have hfails : failsInsideWait = true := by decide +kernel
  unfold failsInsideWait at hfails
  cases hstart : start faultySource 2 1 with
  | error e =>
    rw [hstart] at hfails
    cases hfails
  | ok p =>
    rw [hstart] at hfails
    simp only [Bool.and_eq_true, Bool.not_eq_true', beq_iff_eq] at hfails
    exact ⟨p, rfl, hfails.1, hfails.2, verbatim_of_start rfl rfl hstart {} _⟩

end Playthrough

end VgmPlayback
