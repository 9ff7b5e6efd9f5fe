import VgmPlayback.Proofs.MemorySource
import VgmPlayback.Proofs.ReliableMedia

/-!
# Interruptions do not show

A device may hand out a few bytes at a time, stop short of its planned faults, and be interrupted at any place, as
often as it likes.  As long as it does not fail in any other way, a source over it answers as a source over the same
bytes in memory does (`Source.observations_ofMedium`): whatever is read and wherever the cursor is moved, the results,
the bytes put into the buffers, and what the source tells of its place are the same.

The two sources need not read alike, only come to the same place: each operation is answered from the image and leaves
both at one place of it (`Source.Serves.operate`).
-/

namespace VgmPlayback.Source

/-! ### What a source shows -/

inductive Operation where
  | seek (pos : Nat)
  | read
  /-- Reads as many bytes as the buffer is long, over what it holds. -/
  | readInto (buffer : List UInt8)
deriving DecidableEq, Repr

inductive Answer where
  | moved (result : Except IoError Unit)
  | byte (result : Except IoError (Option UInt8))
  /-- The number of bytes that were read, and the buffer with those that arrived. -/
  | bytes (result : Except IoError Nat) (buffer : List UInt8)

/-- What an operation answers, and the source afterwards, whether or not it succeeds. -/
def operate (s : Source) : Operation → Answer × Source
  | .seek pos =>
    match seek pos s with
    | .ok _ s => (.moved (.ok ()), s)
    | .error e s => (.moved (.error e), s)
  | .read =>
    match read s with
    | .ok b? s => (.byte (.ok b?), s)
    | .error e s => (.byte (.error e), s)
  | .readInto buffer =>
    let t := s.readFully buffer.length
    let filled := t.bytes ++ buffer.drop t.bytes.length
    match t.error? with
    | none => (.bytes (.ok t.bytes.length) filled, t.source)
    | some e => (.bytes (.error e) filled, t.source)

/-- An answer, and what the source tells of its place after it. -/
structure Observation where
  answer : Answer
  pos : Nat
  size : Nat
  remaining : Nat

/-- What is seen of a row of operations. -/
def observations (s : Source) : List Operation → List Observation
  | [] => []
  | op :: ops =>
    let (answer, s) := s.operate op
    { answer, pos := s.pos, size := s.size, remaining := s.remaining } :: s.observations ops

/-! ### One operation -/

/-- The source reads this image from a reliable medium, and its cursor and the head are at `k`. -/
structure Serves (image : List UInt8) (k : Nat) (s : Source) : Prop where
  reliable : s.medium.Reliable
  data_eq : s.medium.data.toList = image
  head_eq : s.medium.head = k
  pos_eq : s.pos = k
  size_eq : s.size = image.length

variable {image : List UInt8} {k n pos : Nat} {s : Source}

private theorem Serves.moved {m : Medium} (h : s.Serves image k) (hreliable : m.Reliable)
    (hmoved : s.medium.MovedBy n m) : Serves image (k + n) { s with medium := m, pos := s.pos + n } where
  reliable := hreliable
  data_eq := (congrArg Array.toList hmoved.data_eq).trans h.data_eq
  head_eq := by rw [hmoved.head_eq, h.head_eq]
  pos_eq := congrArg (· + n) h.pos_eq
  size_eq := h.size_eq

theorem Serves.seek (h : s.Serves image k) (pos : Nat) : ∃ s', Source.seek pos s = .ok () s' ∧ s'.Serves image pos := by
  refine ⟨{ s with medium := { s.medium with seekFaults := [], head := pos }, pos }, ?_, ?_⟩
  · simp only [Source.seek, Medium.seek, h.reliable.seekFaults_eq, Fault.fire]
  · exact ⟨⟨rfl, h.reliable.chunk?_ne, h.reliable.interrupted⟩, h.data_eq, rfl, rfl, h.size_eq⟩

theorem Serves.read_of_lt (h : s.Serves image k) (hk : k < image.length) :
    ∃ s', read s = .ok (some image[k]) s' ∧ s'.Serves image (k + 1) := by
  have hdrop : (image.drop k).take 1 = [image[k]] := by
    rw [List.drop_eq_getElem_cons hk]
    rfl
  obtain ⟨m, hsettled, hreliable, hmoved⟩ := h.reliable.readSettled_one
  rw [h.data_eq, h.head_eq, hdrop] at hsettled hmoved
  have hle : ¬ s.size ≤ s.pos := by
    rw [h.size_eq, h.pos_eq]
    exact Nat.not_le.2 hk
  refine ⟨_, ?_, h.moved hreliable hmoved⟩
  rw [read, if_neg hle, hsettled]

theorem Serves.read_of_le (h : s.Serves image k) (hk : image.length ≤ k) : read s = .ok none s := by
  rw [read, if_pos (by rw [h.size_eq, h.pos_eq]; exact hk)]

theorem Serves.readFully (h : s.Serves image k) (n : Nat) :
    (s.readFully n).bytes = (image.drop k).take n ∧ (s.readFully n).error? = none ∧
      (s.readFully n).source.Serves image (k + ((image.drop k).take n).length) := by
  obtain ⟨herror, hreliable⟩ := h.reliable.readFully n
  have hbytes := Medium.readFully_eq_take h.reliable.chunk?_ne herror
  have hmoved := (s.medium.readFully_arrives n).moved
  rw [h.data_eq, h.head_eq] at hbytes
  rw [hbytes] at hmoved
  unfold Source.readFully
  dsimp only
  rw [herror, hbytes]
  exact ⟨rfl, rfl, h.moved hreliable hmoved⟩

/-- An operation is answered as it is in memory, and leaves the source at the same place. -/
theorem Serves.operate (h : s.Serves image k) (op : Operation) :
    ∃ answer k' s', (inImage image k).operate op = (answer, inImage image k') ∧ s.operate op = (answer, s') ∧
      s'.Serves image k' := by
  cases op with
  | seek pos =>
    obtain ⟨s', hseek, hserves⟩ := h.seek pos
    exact ⟨.moved (.ok ()), pos, s', by simp only [Source.operate, seek_inImage],
      by simp only [Source.operate, hseek], hserves⟩
  | read =>
    by_cases hk : k < image.length
    · obtain ⟨s', hread, hserves⟩ := h.read_of_lt hk
      exact ⟨.byte (.ok (some image[k])), k + 1, s', by simp only [Source.operate, read_inImage_of_lt hk],
        by simp only [Source.operate, hread], hserves⟩
    · have hle := Nat.not_lt.1 hk
      have hread : read (inImage image k) = .ok none (inImage image k) := if_pos hle
      exact ⟨.byte (.ok none), k, s, by simp only [Source.operate, hread],
        by simp only [Source.operate, h.read_of_le hle], h⟩
  | readInto buffer =>
    obtain ⟨hbytes, herror, hserves⟩ := h.readFully buffer.length
    generalize harrived : (image.drop k).take buffer.length = arrived at hbytes hserves
    refine ⟨.bytes (.ok arrived.length) (arrived ++ buffer.drop arrived.length), k + arrived.length, _, ?_, ?_, hserves⟩
    · simp only [Source.operate, readFully_inImage, harrived]
    · simp only [Source.operate, herror, hbytes]

/-! ### Rows of operations -/

theorem Serves.observations_eq (h : s.Serves image k) (ops : List Operation) :
    s.observations ops = (inImage image k).observations ops := by
  induction ops generalizing s k with
  | nil => rfl
  | cons op ops ih =>
    obtain ⟨answer, k', s', hmemory, hdevice, hserves⟩ := h.operate op
    have hremaining : s'.remaining = (inImage image k').remaining := by
      rw [remaining, hserves.size_eq, hserves.pos_eq]
      rfl
    rw [observations, observations, hmemory, hdevice]
    dsimp only
    rw [ih hserves, hserves.pos_eq, hserves.size_eq, hremaining]
    rfl

/-- Over a device that holds these bytes and no others, hands out at least one at a time, and fails only by being
interrupted, a source can be opened, and whatever is done with it shows what it shows in memory. -/
theorem observations_ofMedium {bytes : List UInt8} {chunk? : Option Nat} {faults : List Fault} (hchunk : chunk? ≠ some 0)
    (hfaults : ∀ f ∈ faults, f.kind = .interrupted) :
    ∃ s, ofMedium { data := bytes.toArray, chunk?, readFaults := faults } = .ok s ∧
      ∀ ops, s.observations ops = (ofBytes bytes).observations ops := by
  refine ⟨_, rfl, fun ops => Serves.observations_eq ⟨⟨rfl, hchunk, hfaults⟩, ?_, rfl, rfl, ?_⟩ ops⟩
  · exact List.toList_toArray
  · exact List.size_toArray

/-- Transfers of two bytes at most, interrupted once at the start, twice in the middle, and at the end. -/
private def interruptions : List Fault := [
  { pos := 0, kind := .interrupted, times := 1, after := 0 },
  { pos := 3, kind := .interrupted, times := 2, after := 1 },
  { pos := 5, kind := .interrupted, times := 1, after := 0 }]

theorem observations_ofMedium_interruptions :
    ∃ s, ofMedium { data := [1, 2, 3, 4, 5].toArray, chunk? := some 2, readFaults := interruptions } = .ok s ∧
      some 2 ≠ some 0 ∧ (∀ f ∈ interruptions, f.kind = .interrupted) ∧
      s.observations [.read, .readInto [9, 9, 9], .readInto [9, 9, 9], .read, .seek 3, .read, .seek 8, .readInto [9]] =
        (ofBytes [1, 2, 3, 4, 5]).observations
          [.read, .readInto [9, 9, 9], .readInto [9, 9, 9], .read, .seek 3, .read, .seek 8, .readInto [9]] := by
  have hchunk : some 2 ≠ some 0 := by decide
  have hfaults : ∀ f ∈ interruptions, f.kind = .interrupted := by decide
  obtain ⟨s, hopened, hsame⟩ := @observations_ofMedium [1, 2, 3, 4, 5] _ _ hchunk hfaults
  exact ⟨s, hopened, hchunk, hfaults, hsame _⟩

end VgmPlayback.Source
