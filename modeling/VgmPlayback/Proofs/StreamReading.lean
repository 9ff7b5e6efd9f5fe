import VgmPlayback.Proofs.CommandParser
import VgmPlayback.Proofs.MemorySource
import VgmPlayback.Stream.Fetch
import VgmPlayback.Stream.LoopHead

/-!
# Reading a stream over an image in memory

A command stream over an image in memory stands at a place of the image (`StandsAt`): the next byte to be
consumed is the one there, the queue holds the bytes from there on, and the source stands behind them.
Refilling does not move it (`StandsAt.refill`); consuming moves it by one byte (`agrees_consume`), discarding
by as many as are discarded (`StandsAt.discard_of_le`), and going back to the loop point moves it there
(`LoopHead.inject_of_copyOf`).  How much is read ahead, and when, never shows.

What an action takes from the stream is stated through a parser of the bytes from the place on (`Agrees`);
fetching a command and passing over what belongs to it is decoding it (`Relates.fetch`).
-/

namespace VgmPlayback

namespace CommandStream

/-- The stream reads `image` in memory, and the next byte to be consumed is the one at `c`. -/
structure StandsAt (image : List UInt8) (c : Nat) (s : CommandStream) : Prop where
  source_eq : s.source = .inImage image (c + s.pending.size)
  pending_eq : s.pending.toList = (image.drop c).take s.pending.size
  capacity_pos : 0 < s.capacity

/-- `s'` is what `s`, which stood at `c`, is `n` bytes later. -/
structure After (image : List UInt8) (c n : Nat) (s s' : CommandStream) : Prop where
  standsAt : s'.StandsAt image (c + n)
  capacity_eq : s'.capacity = s.capacity
  bufferPos_eq : s'.bufferPos = s.bufferPos + UInt32.ofNat n
  cmdPos_eq : s'.cmdPos = s.cmdPos + UInt32.ofNat n

variable {image : List UInt8} {c n : Nat} {s s' s'' : CommandStream}

theorem StandsAt.remaining_eq (h : s.StandsAt image c) :
    s.source.remaining = image.length - (c + s.pending.size) := by
  rw [h.source_eq, Source.remaining_inImage]

theorem StandsAt.size_le (h : s.StandsAt image c) : s.pending.size ≤ image.length - c := by
  have hlen := congrArg List.length h.pending_eq
  rw [← Fifo.size_eq_length, List.length_take, List.length_drop] at hlen
  omega

theorem StandsAt.cursor_eq (h : s.StandsAt image c) : s.cursor = c := by
  rw [cursor, h.source_eq, Source.pos_inImage, Nat.add_sub_cancel]

theorem StandsAt.after_zero (h : s.StandsAt image c) : After image c 0 s s where
  standsAt := h
  capacity_eq := rfl
  bufferPos_eq := (UInt32.add_zero _).symm
  cmdPos_eq := (UInt32.add_zero _).symm

theorem After.trans {m : Nat} (h : After image c n s s') (h' : After image (c + n) m s' s'') :
    After image c (n + m) s s'' where
  standsAt := by
    rw [← Nat.add_assoc]
    exact h'.standsAt
  capacity_eq := h'.capacity_eq.trans h.capacity_eq
  bufferPos_eq := by rw [h'.bufferPos_eq, h.bufferPos_eq, UInt32.ofNat_add, UInt32.add_assoc]
  cmdPos_eq := by rw [h'.cmdPos_eq, h.cmdPos_eq, UInt32.ofNat_add, UInt32.add_assoc]

/-! ### Refilling -/

/-- A refill either has nothing to do, for want of room or of bytes, or appends the next byte of the image. -/
theorem StandsAt.refill_eq (h : s.StandsAt image c) :
    (refill s = .ok true s ∧
      (s.capacity ≤ s.pending.size ∨ image.length - (c + s.pending.size) ≤ s.pending.size)) ∨
    ∃ hlt : c + s.pending.size < image.length,
      refill s = .ok false { s with
        source := .inImage image (c + s.pending.size + 1)
        pending := s.pending.push image[c + s.pending.size] } := by
  unfold refill
  by_cases hidle : (s.isFull || decide (s.source.remaining ≤ s.pending.size)) = true
  · left
    rw [if_pos hidle]
    refine ⟨rfl, ?_⟩
    simpa only [isFull, h.remaining_eq, Bool.or_eq_true, decide_eq_true_eq] using hidle
  · right
    have hrem : ¬ s.source.remaining ≤ s.pending.size := by
      simp only [Bool.or_eq_true, decide_eq_true_eq, not_or] at hidle
      exact hidle.2
    rw [h.remaining_eq] at hrem
    have hlt : c + s.pending.size < image.length := by omega
    refine ⟨hlt, ?_⟩
    rw [if_neg hidle, h.source_eq, Source.read_inImage_of_lt hlt]

private theorem toList_push_of_lt (h : s.StandsAt image c) (hlt : c + s.pending.size < image.length) :
    (s.pending.push image[c + s.pending.size]).toList = (image.drop c).take (s.pending.size + 1) := by
  have hget : (image.drop c)[s.pending.size]? = some image[c + s.pending.size] := by
    rw [List.getElem?_drop, List.getElem?_eq_getElem hlt]
  rw [Fifo.toList_push, h.pending_eq, List.take_add_one, hget]
  rfl

/-- Refilling never fails and does not move the stream.  Afterwards the queue is empty only at the end of the
image. -/
theorem StandsAt.refill (h : s.StandsAt image c) :
    ∃ done s', refill s = .ok done s' ∧ After image c 0 s s' ∧
      (s'.pending.isEmpty = true ↔ image.length ≤ c) := by
  rcases h.refill_eq with ⟨heq, hidle⟩ | ⟨hlt, heq⟩
  · have hcap := h.capacity_pos
    have hsize := h.size_le
    refine ⟨true, s, heq, h.after_zero, ?_⟩
    -- an empty queue has room, so it was the image that gave out
    rw [Fifo.isEmpty_iff_size]
    omega
  · refine ⟨false, _, heq, ⟨⟨rfl, toList_push_of_lt h hlt, h.capacity_pos⟩, rfl,
      (UInt32.add_zero _).symm, (UInt32.add_zero _).symm⟩, ?_⟩
    rw [Fifo.isEmpty_iff_size]
    simp only [Fifo.push]
    omega

theorem StandsAt.refillUpTo (m : Nat) (h : s.StandsAt image c) :
    ∃ s', refillUpTo m s = .ok () s' ∧ After image c 0 s s' := by
  induction m generalizing s with
  | zero => exact ⟨s, rfl, h.after_zero⟩
  | succ m ih =>
    obtain ⟨done, s₁, hrefill, hafter, -⟩ := h.refill
    cases done with
    | true => exact ⟨s₁, by simp only [CommandStream.refillUpTo, hrefill], hafter⟩
    | false =>
      obtain ⟨s₂, hmore, hafter'⟩ := ih hafter.standsAt
      exact ⟨s₂, by simp only [CommandStream.refillUpTo, hrefill, hmore], hafter.trans hafter'⟩

theorem StandsAt.fill (h : s.StandsAt image c) :
    ∃ s', fill s = .ok () s' ∧ s'.StandsAt image c ∧ s'.capacity = s.capacity ∧ s'.bufferPos = 0 ∧
      s'.cmdPos = s.cmdPos := by
  obtain ⟨s₁, hrefill, hafter⟩ := h.refillUpTo (s.capacity - s.pending.size)
  refine ⟨{ s₁ with bufferPos := 0 }, by simp only [CommandStream.fill, hrefill],
    ⟨hafter.standsAt.source_eq, hafter.standsAt.pending_eq, hafter.standsAt.capacity_pos⟩,
    hafter.capacity_eq, rfl, ?_⟩
  exact hafter.cmdPos_eq.trans (UInt32.add_zero _)

/-! ### Consuming -/

private theorem pop?_eq_none_iff (q : Fifo) : q.pop? = none ↔ q.isEmpty = true := by
  have hpop := q.toList_pop?
  rw [Fifo.isEmpty_iff]
  cases hq : q.pop? <;> cases hl : q.toList <;> simp [hq, hl] at hpop ⊢

private theorem exists_pop? {q : Fifo} {b : UInt8} {bs : List UInt8} (hq : q.toList = b :: bs) :
    ∃ q', q.pop? = some (b, q') ∧ q'.toList = bs := by
  have hpop := q.toList_pop?
  rw [hq] at hpop
  obtain ⟨r, hr, hr'⟩ := Option.map_eq_some_iff.1 hpop
  simp only [Prod.mk.injEq] at hr'
  exact ⟨r.2, by rw [hr, ← hr'.1], hr'.2⟩

private theorem StandsAt.pop (h : s.StandsAt image c) (hsize : 0 < s.pending.size) :
    ∃ hlt : c < image.length, ∃ q, s.pending.pop? = some (image[c], q) ∧
      After image c 1 s { s with pending := q, bufferPos := s.bufferPos + 1, cmdPos := s.cmdPos + 1 } := by
  have hle := h.size_le
  have hlt : c < image.length := by omega
  obtain ⟨n, hn⟩ : ∃ n, s.pending.size = n + 1 := ⟨s.pending.size - 1, by omega⟩
  have hq : s.pending.toList = image[c] :: (image.drop (c + 1)).take n := by
    rw [h.pending_eq, hn, List.drop_eq_getElem_cons hlt, List.take_succ_cons]
  obtain ⟨q, hpop, hrest⟩ := exists_pop? hq
  have hqsize : q.size = n := by
    rw [Fifo.size_eq_length, hrest, List.length_take, List.length_drop]
    omega
  refine ⟨hlt, q, hpop, ⟨?_, ?_, h.capacity_pos⟩, rfl, rfl, rfl⟩
  · rw [h.source_eq, hn]
    show Source.inImage image (c + (n + 1)) = Source.inImage image (c + 1 + q.size)
    rw [hqsize]
    congr 1
    omega
  · show q.toList = (image.drop (c + 1)).take q.size
    rw [hrest, hqsize]

/-- A stream with nothing pending and no bytes left, over whatever source, can only fail. -/
theorem consume_of_exhausted (hempty : s.pending.isEmpty = true) (hrem : s.source.remaining = 0) :
    consume s = .error .unexpectedEof s := by
  have hidle : refill s = .ok true s := by
    rw [CommandStream.refill, if_pos (by simp [hrem])]
  simp only [consume, hempty, ↓reduceIte, hidle, (pop?_eq_none_iff s.pending).2 hempty]

theorem StandsAt.consume_of_lt (h : s.StandsAt image c) (hlt : c < image.length) :
    ∃ s', consume s = .ok image[c] s' ∧ After image c 1 s s' := by
  by_cases hempty : s.pending.isEmpty = true
  · -- the queue ran dry, so one refill is forced
    obtain ⟨done, s₁, hrefill, hafter, hs₁⟩ := h.refill
    have hsize : 0 < s₁.pending.size := by
      have := mt hs₁.1 (Nat.not_le.2 hlt)
      rw [Fifo.isEmpty_iff_size] at this
      omega
    obtain ⟨_, q, hpop, hpopped⟩ := hafter.standsAt.pop hsize
    refine ⟨_, ?_, hafter.trans hpopped⟩
    simp only [consume, hempty, ↓reduceIte, hrefill, hpop, Nat.add_zero]
  · have hsize : 0 < s.pending.size := by
      rw [Fifo.isEmpty_iff_size] at hempty
      omega
    obtain ⟨_, q, hpop, hpopped⟩ := h.pop hsize
    refine ⟨_, ?_, hpopped⟩
    simp only [consume, hempty, ↓reduceIte, hpop, Bool.false_eq_true]

theorem StandsAt.consume_of_le (h : s.StandsAt image c) (hle : image.length ≤ c) :
    consume s = .error .unexpectedEof s := by
  have hsize := h.size_le
  refine consume_of_exhausted (s.pending.isEmpty_iff_size.2 (by omega)) ?_
  rw [h.remaining_eq]
  omega

/-! ### Actions and parsers -/

open ByteParser

/-- A relation of actions to parsers that consuming a byte keeps, and that passes to what is done one after the
other. -/
structure Relates (R : ∀ {α : Type}, EStateM FormatError CommandStream α → ByteParser α → Prop) : Prop where
  done : ∀ {α : Type} (a : α), R (pure a) (done a)
  consume : R consume byte
  bind : ∀ {α β : Type} {act : EStateM FormatError CommandStream α} {parse : ByteParser α}
    {next : α → EStateM FormatError CommandStream β} {parseNext : α → ByteParser β},
    R act parse → (∀ a, R (next a) (parseNext a)) → R (act >>= next) (parse.andThen parseNext)

namespace Relates

variable {R : ∀ {α : Type}, EStateM FormatError CommandStream α → ByteParser α → Prop}

theorem consume16 (h : Relates R) : R consume16 word16 :=
  h.bind h.consume fun _ => h.bind h.consume fun _ => h.done _

theorem consume32 (h : Relates R) : R consume32 word32 :=
  h.bind h.consume fun _ => h.bind h.consume fun _ => h.bind h.consume fun _ => h.bind h.consume fun _ => h.done _

/-- Fetching a command is parsing its head. -/
theorem fetch (h : Relates R) : R fetch commandHead := by
  refine h.bind h.consume fun opcode => ?_
  cases Opcode.ofByte opcode with
  | ym2151Write => exact h.bind h.consume fun _ => h.bind h.consume fun _ => h.done _
  | waitSamples => exact h.bind h.consume16 fun _ => h.done _
  | dataBlock =>
    exact h.bind h.consume fun _ => h.bind h.consume fun _ => h.bind h.consume32 fun _ => h.done _
  | _ => exact h.done _

end Relates

/-- What an action takes from the stream is what the parser finds in the bytes from its place on; where the
bytes end before that, the action fails, wherever it has come to. -/
def Agrees {α : Type} (act : EStateM FormatError CommandStream α) (parse : ByteParser α) : Prop :=
  ∀ {image : List UInt8} {c : Nat} {s : CommandStream}, s.StandsAt image c →
    match parse (image.drop c) with
    | some (a, n) => ∃ s', act s = .ok a s' ∧ After image c n s s'
    | none => ∃ n s', act s = .error .unexpectedEof s' ∧ After image c n s s'

theorem agrees_done {α : Type} (a : α) : Agrees (pure a) (done a) :=
  fun {_ _ s} h => ⟨s, rfl, h.after_zero⟩

theorem agrees_consume : Agrees consume byte := by
  intro image c s h
  by_cases hlt : c < image.length
  · rw [List.drop_eq_getElem_cons hlt]
    exact h.consume_of_lt hlt
  · have hle := Nat.not_lt.1 hlt
    rw [List.drop_eq_nil_of_le hle]
    exact ⟨0, s, h.consume_of_le hle, h.after_zero⟩

theorem Agrees.bind {α β : Type} {act : EStateM FormatError CommandStream α} {parse : ByteParser α}
    {next : α → EStateM FormatError CommandStream β} {parseNext : α → ByteParser β} (h : Agrees act parse)
    (hnext : ∀ a, Agrees (next a) (parseNext a)) : Agrees (act >>= next) (parse.andThen parseNext) := by
  intro image c s hs
  have hact := h hs
  unfold andThen
  cases hp : parse (image.drop c) with
  | none =>
    rw [hp] at hact
    -- the first action fails, and what it has taken until then is gone
    obtain ⟨n, s', heq, hafter⟩ := hact
    exact ⟨n, s', by simp only [Bind.bind, EStateM.bind, heq], hafter⟩
  | some r =>
    obtain ⟨a, n⟩ := r
    rw [hp] at hact
    obtain ⟨s', heq, hafter⟩ := hact
    have hthen := hnext a hafter.standsAt
    have hrun : (act >>= next) s = next a s' := by simp only [Bind.bind, EStateM.bind, heq]
    simp only [List.drop_drop]
    cases hp' : parseNext a (image.drop (c + n)) with
    | none =>
      rw [hp'] at hthen
      obtain ⟨m, s'', heq', hafter'⟩ := hthen
      exact ⟨n + m, s'', hrun.trans heq', hafter.trans hafter'⟩
    | some r =>
      rw [hp'] at hthen
      obtain ⟨s'', heq', hafter'⟩ := hthen
      exact ⟨s'', hrun.trans heq', hafter.trans hafter'⟩

theorem relates_agrees : Relates Agrees := ⟨agrees_done, agrees_consume, Agrees.bind⟩

/-! ### Discarding -/

/-- What is left in the queue after discarding, and the source behind it. -/
private theorem StandsAt.discarded {m : Nat} (h : s.StandsAt image c) :
    (s.pending.drop (min m s.pending.size)).toList = (image.drop (c + m)).take (s.pending.size - m) ∧
      (if m - s.pending.size = 0 then .ok () s.source else Source.seek (s.source.pos + (m - s.pending.size)) s.source) =
        EStateM.Result.ok () (.inImage image (c + m + (s.pending.size - m))) := by
  rcases Nat.le_total m s.pending.size with hle | hle
  · -- all of it is in the queue, and the source stays
    have hrest : m - s.pending.size = 0 := by omega
    constructor
    · rw [Nat.min_eq_left hle, Fifo.toList_drop, h.pending_eq, List.drop_take, List.drop_drop]
    · rw [if_pos hrest, h.source_eq]
      congr 2
      omega
  · -- the queue runs dry, and the source moves by the rest
    have hnone : s.pending.size - m = 0 := by omega
    constructor
    · rw [Nat.min_eq_right hle, hnone, Fifo.toList_drop, Fifo.size_eq_length, List.drop_length, List.take_zero]
    · by_cases hrest : m - s.pending.size = 0
      · rw [if_pos hrest, h.source_eq]
        congr 2
        omega
      · rw [if_neg hrest, h.source_eq, Source.seek_inImage, Source.pos_inImage]
        congr 2
        omega

theorem StandsAt.discard_of_le {count : UInt32} (h : s.StandsAt image c)
    (hle : count.toNat ≤ image.length - c) :
    ∃ s', discard count s = .ok () s' ∧ After image c count.toNat s s' := by
  have hsize := h.size_le
  have hrem := h.remaining_eq
  have hcount : UInt32.ofNat count.toNat = count := UInt32.ofNat_toNat
  have henough : ¬ s.pending.size + s.source.remaining < count.toNat := by omega
  have hkept : (s.pending.drop (min count.toNat s.pending.size)).size = s.pending.size - count.toNat := by
    rw [Fifo.size_drop]
    omega
  obtain ⟨hbytes, hsource⟩ := h.discarded (m := count.toNat)
  refine ⟨{ s with
    source := .inImage image (c + count.toNat + (s.pending.size - count.toNat))
    pending := s.pending.drop (min count.toNat s.pending.size)
    bufferPos := s.bufferPos + count
    cmdPos := s.cmdPos + count }, ?_, ⟨?_, ?_, h.capacity_pos⟩, rfl, ?_, ?_⟩
  · unfold discard
    dsimp only
    rw [if_neg henough, hsource]
  · show Source.inImage image _ = .inImage image (c + count.toNat + (s.pending.drop _).size)
    rw [hkept]
  · show (s.pending.drop _).toList = (image.drop _).take (s.pending.drop _).size
    rw [hbytes, hkept]
  · show s.bufferPos + count = _
    rw [hcount]
  · show s.cmdPos + count = _
    rw [hcount]

theorem StandsAt.discard_of_lt {count : UInt32} (h : s.StandsAt image c)
    (hlt : image.length - c < count.toNat) : discard count s = .error .unexpectedEof s := by
  have hsize := h.size_le
  have hrem := h.remaining_eq
  have hshort : s.pending.size + s.source.remaining < count.toNat := by omega
  simp only [discard, hshort, ↓reduceIte]

end CommandStream

/-! ### Going back to the loop point -/

namespace LoopHead

open CommandStream

variable {image : List UInt8} {s : CommandStream} {head : LoopHead}

/-- The copied bytes are the first ones at the offset. -/
structure CopyOf (image : List UInt8) (offset : Nat) (head : LoopHead) : Prop where
  offset_eq : head.offset = offset
  bytes_eq : head.bytes = (image.drop offset).take head.length

theorem snapshot_inImage (head : LoopHead) (image : List UInt8) (offset k : Nat) :
    ∃ head', head.snapshot offset (.inImage image k) = (.ok (), head', .inImage image k) ∧
      head'.CopyOf image offset ∧ head'.length = min head.capacity (image.length - offset) ∧
      head'.capacity = head.capacity := by
  refine ⟨{ head with copied := .ofList ((image.drop offset).take head.capacity), offset }, ?_, ⟨rfl, ?_⟩, ?_, rfl⟩
  · simp [snapshot]
  · simp [bytes, length, Fifo.size_eq_length]
  · simp [length, Fifo.size_eq_length]

/-- Going back to the loop point brings the stream there, with the copied bytes in the queue. -/
theorem inject_of_copyOf {offset : Nat} (hcopy : head.CopyOf image offset) {k : Nat}
    (hsource : s.source = .inImage image k) (hcap : 0 < s.capacity) :
    ∃ s', head.inject s = .ok () s' ∧ s'.StandsAt image offset ∧ s'.capacity = s.capacity ∧
      s'.pending = head.copied.take s.capacity ∧ s'.bufferPos = 0 ∧
      s'.cmdPos = UInt32.ofNat (min s.capacity head.length - 1) := by
  have hsize : (head.copied.take s.capacity).size = min s.capacity head.length := Fifo.size_take _ _
  have hbytes : (head.copied.take s.capacity).toList =
      (image.drop offset).take (min s.capacity head.length) := by
    rw [Fifo.toList_take, show head.copied.toList = _ from hcopy.bytes_eq, List.take_take]
  refine ⟨{ s with
    source := .inImage image (head.offset + (head.copied.take s.capacity).size)
    pending := head.copied.take s.capacity
    bufferPos := 0
    cmdPos := UInt32.ofNat ((head.copied.take s.capacity).size - 1) }, ?_, ⟨?_, ?_, hcap⟩, rfl, rfl, rfl, ?_⟩
  · simp only [inject, clear, hsource, Source.seek_inImage]
  · show Source.inImage image (head.offset + _) = .inImage image (offset + _)
    rw [hcopy.offset_eq]
  · show (head.copied.take s.capacity).toList = (image.drop offset).take (head.copied.take s.capacity).size
    rw [hbytes, hsize]
  · rw [hsize]

end LoopHead

end VgmPlayback
