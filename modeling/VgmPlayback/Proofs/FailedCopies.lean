import VgmPlayback.Proofs.ReliableMedia

/-!
# Copies that fail

A loop head that has just copied holds the bytes at its offset, all of them that there is room for.  A copy that fails
moves the offset all the same and keeps the old length, over the bytes that had arrived and zeros after them
(`LoopHead.snapshot_cases`); the old length is that of the latest copy that was made (`LoopHead.length_attemptAll`).
So after a row of attempts the copied bytes are those at the offset exactly if the last attempt succeeded, or if each
place that its bytes did not reach, within the old length, holds a zero anyway (`LoopHead.verbatim_iff_of_snapshot`).
While no copy was made there is no such place, and the loop head is empty.
-/

namespace VgmPlayback

/-! ### Bytes before zeros -/

section Filled

variable {arrived rest : List UInt8} {n : Nat}

private theorem replicate_prefix_iff : List.replicate n 0 <+: rest ↔ ∀ i < n, rest[i]? = some 0 := by
  simp only [List.prefix_iff_getElem?, List.length_replicate, List.getElem_replicate]

/-- `n` places filled with the first bytes of `rest`, and zeros from there on, hold what stands in `rest` exactly if
zeros stand there too. -/
private theorem filled_prefix_iff (h : arrived <+: rest) :
    arrived.take n ++ List.replicate (n - arrived.length) 0 <+: rest ↔
      ∀ i, arrived.length ≤ i → i < n → rest[i]? = some 0 := by
  by_cases hn : n ≤ arrived.length
  · rw [Nat.sub_eq_zero_of_le hn, List.replicate_zero, List.append_nil]
    exact iff_of_true ((List.take_prefix n arrived).trans h) fun i hle hlt => by omega
  · obtain ⟨later, rfl⟩ := h
    rw [List.take_of_length_le (by omega), List.prefix_append_right_inj, replicate_prefix_iff]
    constructor
    · intro hzero i hle hlt
      rw [List.getElem?_append_right hle]
      exact hzero (i - arrived.length) (by omega)
    · intro hzero i hlt
      have hlater := hzero (arrived.length + i) (by omega) (by omega)
      rwa [List.getElem?_append_right (by omega), Nat.add_sub_cancel_left] at hlater

end Filled

/-! ### Reading elsewhere -/

namespace Source

variable {s : Source} {offset n : Nat}

/-- The image of the medium. -/
def data (s : Source) : List UInt8 := s.medium.data.toList

/-- Moves to the offset and reads up to `n` bytes there. -/
def readFrom (s : Source) (offset n : Nat) : Transfer :=
  match seek offset s with
  | .ok _ s => s.readFully n
  | .error e s => ⟨[], some e, s⟩

private theorem bytes_readFully (s : Source) (n : Nat) : (s.readFully n).bytes = (s.medium.readFully n).bytes := by
  unfold readFully
  dsimp only
  split <;> rfl

theorem bytes_readFrom_prefix (s : Source) (offset n : Nat) : (s.readFrom offset n).bytes <+: s.data.drop offset := by
  unfold readFrom
  cases hseek : seek offset s with
  | error e s' => exact List.nil_prefix
  | ok _ s' =>
    obtain ⟨faults, rfl⟩ := eq_of_seek hseek
    dsimp only
    rw [bytes_readFully]
    exact (Medium.readFully_arrives _ n).prefix_drop

/-- If nothing fails, all the bytes arrive that are asked for, or all there are. -/
theorem bytes_readFrom_eq_take (hchunk : s.medium.chunk? ≠ some 0) (hread : (s.readFrom offset n).error? = none) :
    (s.readFrom offset n).bytes = (s.data.drop offset).take n := by
  unfold readFrom at hread ⊢
  cases hseek : seek offset s with
  | error e s' =>
    simp only [hseek] at hread
    cases hread
  | ok _ s' =>
    simp only [hseek] at hread
    have htake : take n s' = .ok (s'.readFully n).bytes (s'.readFully n).source := by
      simp only [take, hread]
    exact ((ahead_of_seek hchunk hseek).of_take htake).1

end Source

/-! ### Attempts to copy -/

namespace LoopHead

/-- A try to copy the bytes at the offset.  The source may be in any state, with any failures planned: another one each
time, or the one that the attempt before has left. -/
structure Attempt where
  offset : Nat
  source : Source

/-- The copy that a new loop head makes in the attempt, unless it fails. -/
def Attempt.copy? (a : Attempt) (capacity : Nat) : Option (List UInt8) :=
  match (empty capacity).snapshot a.offset a.source with
  | (.ok _, head, _) => some head.bytes
  | (.error _, _, _) => none

/-- The copies that are made in a row of attempts. -/
def copies (capacity : Nat) (attempts : List Attempt) : List (List UInt8) := attempts.filterMap (·.copy? capacity)

/-- The loop head after an attempt, whether or not it succeeds. -/
def attempt (head : LoopHead) (a : Attempt) : LoopHead := (head.snapshot a.offset a.source).2.1

def attemptAll (head : LoopHead) (attempts : List Attempt) : LoopHead := attempts.foldl attempt head

variable {head served : LoopHead} {offset : Nat} {source source' : Source} {result : Except IoError Unit}

private theorem bytes_overwrite (head : LoopHead) (arrived : List UInt8) : (head.overwrite arrived).toList =
    arrived.take head.length ++ List.replicate (head.length - arrived.length) 0 := by
  rw [overwrite, Fifo.toList_ofList]

private theorem size_overwrite (head : LoopHead) (arrived : List UInt8) :
    (head.overwrite arrived).size = head.length := by
  rw [Fifo.size_eq_length, bytes_overwrite, List.length_append, List.length_take, List.length_replicate]
  omega

private theorem snapshot_eq (head : LoopHead) (offset : Nat) (source : Source) : head.snapshot offset source =
    let copy := source.readFrom offset head.capacity
    match Source.seek source.pos copy.source with
    | .error e s => (.error e, { head with copied := head.overwrite copy.bytes, offset }, s)
    | .ok _ s =>
      match copy.error? with
      | some e => (.error e, { head with copied := head.overwrite copy.bytes, offset }, s)
      | none => (.ok (), { head with copied := .ofList copy.bytes, offset }, s) := rfl

/-- A copy is made or fails.  Which of the two, and what arrives, does not depend on what the loop head held. -/
theorem snapshot_cases (head : LoopHead) (offset : Nat) (source : Source) :
    (∃ source', head.snapshot offset source =
        (.ok (), { head with copied := .ofList (source.readFrom offset head.capacity).bytes, offset }, source') ∧
      (source.readFrom offset head.capacity).error? = none ∧
      Attempt.copy? ⟨offset, source⟩ head.capacity = some (source.readFrom offset head.capacity).bytes) ∨
    (∃ e source', head.snapshot offset source =
        (.error e, { head with copied := head.overwrite (source.readFrom offset head.capacity).bytes, offset },
          source') ∧
      Attempt.copy? ⟨offset, source⟩ head.capacity = none) := by
  rw [Attempt.copy?, snapshot_eq, snapshot_eq, empty]
  dsimp only
  cases Source.seek source.pos (source.readFrom offset head.capacity).source with
  | error e source' => exact .inr ⟨e, source', rfl, rfl⟩
  | ok _ source' =>
    cases (source.readFrom offset head.capacity).error? with
    | some e => exact .inr ⟨e, source', rfl, rfl⟩
    | none => exact .inl ⟨source', rfl, rfl, congrArg some (Fifo.toList_ofList _)⟩

theorem capacity_attempt (head : LoopHead) (a : Attempt) : (head.attempt a).capacity = head.capacity := by
  unfold attempt
  rcases head.snapshot_cases a.offset a.source with ⟨source', heq, -⟩ | ⟨e, source', heq, -⟩ <;> rw [heq]

theorem length_attempt (head : LoopHead) (a : Attempt) :
    (head.attempt a).length = ((a.copy? head.capacity).map List.length).getD head.length := by
  unfold attempt
  rcases head.snapshot_cases a.offset a.source with ⟨source', heq, -, hcopy⟩ | ⟨e, source', heq, hcopy⟩
  · rw [heq, hcopy]
    rfl
  · rw [heq, hcopy]
    exact head.size_overwrite _

/-- However many attempts have failed since, the length is that of the latest copy. -/
theorem length_attemptAll (head : LoopHead) (attempts : List Attempt) :
    (head.attemptAll attempts).length = ((copies head.capacity attempts).map List.length).getLastD head.length := by
  induction attempts generalizing head with
  | nil => rfl
  | cons a attempts ih =>
    have hlater := ih (head.attempt a)
    rw [head.capacity_attempt a, head.length_attempt a] at hlater
    refine hlater.trans ?_
    rw [copies, copies, List.filterMap_cons]
    cases a.copy? head.capacity with
    | none => rfl
    | some bytes => exact (List.getLastD_cons ..).symm

theorem capacity_attemptAll (head : LoopHead) (attempts : List Attempt) :
    (head.attemptAll attempts).capacity = head.capacity := by
  induction attempts generalizing head with
  | nil => rfl
  | cons a attempts ih => exact (ih (head.attempt a)).trans (head.capacity_attempt a)

/-- Going back to the loop point hands on the copied bytes, whatever they are. -/
theorem pending_of_inject {s s' : CommandStream} (h : head.inject s = .ok () s') :
    s'.cursor = head.offset ∧ s'.pending.toList = head.bytes.take s.capacity := by
  unfold inject at h
  dsimp only [CommandStream.clear] at h
  cases hseek : Source.seek (head.offset + (head.copied.take s.capacity).size) s.source with
  | error e source' =>
    simp only [hseek] at h
    cases h
  | ok _ source' =>
    simp only [hseek] at h
    cases h
    obtain ⟨faults, rfl⟩ := Source.eq_of_seek hseek
    exact ⟨Nat.add_sub_cancel .., Fifo.toList_take ..⟩

/-- What a loop head holds after any row of attempts and one more.  The offset is that of the last attempt.  If it
succeeded, the bytes are those at the offset; if it failed, there are as many as the latest copy had, and those that
did not arrive are zeros.  So they are a verbatim copy exactly if the attempt succeeded or zeros stand there anyway,
and whatever they are, the stream goes on with them at the loop point. -/
theorem verbatim_iff_of_snapshot {capacity : Nat} {earlier : List Attempt}
    (h : ((empty capacity).attemptAll earlier).snapshot offset source = (result, served, source')) :
    let arrived := (source.readFrom offset capacity).bytes
    let kept := ((copies capacity earlier).map List.length).getLastD 0
    served.offset = offset ∧ arrived <+: source.data.drop offset ∧
    (result = .ok () → served.bytes = arrived ∧
      (source.medium.chunk? ≠ some 0 → arrived = (source.data.drop offset).take capacity)) ∧
    (result ≠ .ok () → served.bytes = arrived.take kept ++ List.replicate (kept - arrived.length) 0) ∧
    (served.bytes <+: source.data.drop served.offset ↔
      result = .ok () ∨ ∀ i, arrived.length ≤ i → i < kept → source.data[offset + i]? = some 0) ∧
    ∀ s s', served.inject s = .ok () s' →
      s'.cursor = offset ∧ s'.pending.toList = served.bytes.take s.capacity := by
  intro arrived kept
  have hpre : arrived <+: source.data.drop offset := source.bytes_readFrom_prefix offset capacity
  have hkept : ((empty capacity).attemptAll earlier).length = kept := length_attemptAll (empty capacity) earlier
  have hcapacity : ((empty capacity).attemptAll earlier).capacity = capacity :=
    capacity_attemptAll (empty capacity) earlier
  generalize (empty capacity).attemptAll earlier = head at h hkept hcapacity
  subst hcapacity
  rcases head.snapshot_cases offset source with ⟨_, heq, hread, -⟩ | ⟨e, _, heq, -⟩ <;>
    rw [heq] at h <;> cases h
  case inl =>
    have hbytes : (Fifo.ofList arrived).toList = arrived := Fifo.toList_ofList arrived
    refine ⟨rfl, hpre, fun _ => ⟨hbytes, (Source.bytes_readFrom_eq_take · hread)⟩, (absurd rfl ·),
      iff_of_true ?_ (.inl rfl), fun _ _ => pending_of_inject⟩
    show (Fifo.ofList arrived).toList <+: source.data.drop offset
    rw [hbytes]
    exact hpre
  case inr =>
    have hbytes : (head.overwrite arrived).toList = arrived.take kept ++ List.replicate (kept - arrived.length) 0 := by
      rw [bytes_overwrite, hkept]
    refine ⟨rfl, hpre, nofun, fun _ => hbytes, ?_, fun _ _ => pending_of_inject⟩
    change (head.overwrite arrived).toList <+: source.data.drop offset ↔ _
    rw [hbytes, filled_prefix_iff hpre]
    simp only [List.getElem?_drop, reduceCtorEq, false_or]

/-- A device with eight bytes that fails once to read the sixth. -/
private def scratched : Source where
  medium := { data := #[1, 2, 3, 4, 5, 6, 7, 8], readFaults := [⟨5, .other, 1, 0⟩] }
  size := 8
  pos := 0

/-- The first four bytes are copied, the next four are tried, and the stream goes back to them. -/
private def failsThenGoesBack : Bool :=
  match ((empty 4).attemptAll [⟨0, scratched⟩]).snapshot 4 scratched with
  | (.ok _, _, _) => false
  | (.error e, served, source') =>
    match served.inject (.ofSource source' 4) with
    | .ok _ _ => e == .readFault .other 5
    | .error _ _ => false

/-- Of the four bytes at the fifth one arrives.  The other three are zeros that do not stand there, and the stream goes
on with them. -/
theorem verbatim_iff_of_snapshot_scratched :
    ∃ served source', ((empty 4).attemptAll [⟨0, scratched⟩]).snapshot 4 scratched =
        (.error (.readFault .other 5), served, source') ∧
      served.offset = 4 ∧ served.bytes = [5, 0, 0, 0] ∧ ¬ served.bytes <+: scratched.data.drop served.offset ∧
      ∃ s', served.inject (.ofSource source' 4) = .ok () s' ∧
        s'.cursor = 4 ∧ s'.pending.toList = [5, 0, 0, 0] := by
  have hfails : failsThenGoesBack = true := by decide +kernel
  unfold failsThenGoesBack at hfails
  rcases hsnapshot : ((empty 4).attemptAll [⟨0, scratched⟩]).snapshot 4 scratched with ⟨result, served, source'⟩
  obtain ⟨hoffset, -, -, hfailed, hverbatim, hserves⟩ := verbatim_iff_of_snapshot hsnapshot
  have harrived : (scratched.readFrom 4 4).bytes = [5] := by decide +kernel
  have hkept : ((copies 4 [⟨0, scratched⟩]).map List.length).getLastD 0 = 4 := by decide +kernel
  rw [harrived, hkept] at hfailed hverbatim
  rw [hsnapshot] at hfails
  cases result with
  | ok _ => cases hfails
  | error e =>
    cases hinject : served.inject (.ofSource source' 4) with
    | error e' s' =>
      simp only [hinject] at hfails
      cases hfails
    | ok _ s' =>
      simp only [hinject] at hfails
      obtain rfl : e = .readFault .other 5 := beq_iff_eq.1 hfails
      have hbytes : served.bytes = [5, 0, 0, 0] := hfailed nofun
      obtain ⟨hcursor, hpending⟩ := hserves _ s' hinject
      refine ⟨served, source', rfl, hoffset, hbytes, ?_, s', hinject, hcursor, ?_⟩
      · rw [hverbatim]
        rintro (hok | hzero)
        · cases hok
        · exact absurd (hzero 1 (by decide) (by decide)) (by decide)
      · rw [hpending, hbytes]
        rfl

end LoopHead

end VgmPlayback
