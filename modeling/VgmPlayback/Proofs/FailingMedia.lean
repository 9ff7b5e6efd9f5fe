import VgmPlayback.Format.HeaderCodec
import VgmPlayback.Proofs.SourceActions
import VgmPlayback.Stream.LoopHead

/-!
# Reading from media that fail

Whatever a medium does while it is read (transfers of any size, interruptions, failures, an end before the announced
size), its image stays the same, and the head moves by the bytes that arrived, which are those at the head
(`Medium.readFully_arrives`).

A source is in step with its medium when its cursor is where the head is (`Source.InStep`).  Reading one byte keeps
it in step, even when it fails (`Source.InStep.read_cases`).  A longer read that fails does not; but on a medium that
can be moved (`Source.Over`), whoever reads in this way moves the cursor afterwards, and that brings the two together
again (`Source.Over.seek`, `Gd3.read_of_over`, `LoopHead.snapshot_of_inStep`).
-/

namespace VgmPlayback

/-! ### Pieces of an image -/

section Pieces

variable {bytes more rest : List UInt8} {b : UInt8} {pos : Nat}

theorem prefix_append_of_drop (h : bytes <+: rest) (hmore : more <+: rest.drop bytes.length) :
    bytes ++ more <+: rest := by
  obtain ⟨rest', rfl⟩ := h
  rw [List.drop_left] at hmore
  exact (List.prefix_append_right_inj bytes).2 hmore

theorem getElem?_of_prefix_drop (h : b :: bytes <+: rest.drop pos) : rest[pos]? = some b := by
  obtain ⟨rest', hrest⟩ := h
  have hget := congrArg (·[0]?) hrest.symm
  simp only [List.getElem?_drop, Nat.add_zero, List.cons_append, List.getElem?_cons_zero] at hget
  exact hget

theorem prefix_drop_succ (h : b :: bytes <+: rest.drop pos) : bytes <+: rest.drop (pos + 1) := by
  obtain ⟨rest', hrest⟩ := h
  refine ⟨rest', ?_⟩
  rw [← List.drop_drop, ← hrest]
  rfl

theorem singleton_prefix_drop (h : rest[pos]? = some b) : [b] <+: rest.drop pos := by
  obtain ⟨hlt, rfl⟩ := List.getElem?_eq_some_iff.1 h
  rw [List.drop_eq_getElem_cons hlt]
  exact List.prefix_append [rest[pos]] (rest.drop (pos + 1))

end Pieces

/-! ### Media -/

namespace Medium

/-- `m'` is `m` with the head moved on by `n` bytes; what failures are still planned may have changed too. -/
def MovedBy (m : Medium) (n : Nat) (m' : Medium) : Prop :=
  ∃ faults, m' = { m with readFaults := faults, head := m.head + n }

variable {m m' m'' : Medium} {n k : Nat}

theorem MovedBy.data_eq (h : m.MovedBy n m') : m'.data = m.data := by
  obtain ⟨faults, rfl⟩ := h
  rfl

theorem MovedBy.head_eq (h : m.MovedBy n m') : m'.head = m.head + n := by
  obtain ⟨faults, rfl⟩ := h
  rfl

theorem MovedBy.seekFaults_eq (h : m.MovedBy n m') : m'.seekFaults = m.seekFaults := by
  obtain ⟨faults, rfl⟩ := h
  rfl

theorem MovedBy.chunk?_eq (h : m.MovedBy n m') : m'.chunk? = m.chunk? := by
  obtain ⟨faults, rfl⟩ := h
  rfl

theorem MovedBy.trans (h : m.MovedBy n m') (h' : m'.MovedBy k m'') : m.MovedBy (n + k) m'' := by
  obtain ⟨faults, rfl⟩ := h
  obtain ⟨faults', rfl⟩ := h'
  exact ⟨faults', by simp only [Nat.add_assoc]⟩

/-- At most `n` bytes arrive, they are those at the head, and the head moves by as many. -/
structure Arrives (m : Medium) (n : Nat) (bytes : List UInt8) (m' : Medium) : Prop where
  le : bytes.length ≤ n
  prefix_drop : bytes <+: m.data.toList.drop m.head
  moved : m.MovedBy bytes.length m'

private theorem foldl_min_le (fs : List Fault) (head free : Nat) :
    fs.foldl (fun k f => min k (f.pos - head)) free ≤ free := by
  induction fs generalizing free with
  | nil => exact Nat.le_refl free
  | cons f fs ih =>
    have := ih (min free (f.pos - head))
    rw [List.foldl_cons]
    omega

private theorem transferSize_le (m : Medium) (n : Nat) : m.transferSize n ≤ min n (m.data.size - m.head) := by
  have hfold := foldl_min_le (m.readFaults.filter fun f => 0 < f.times && m.head < f.pos) m.head
    (min (min n (m.data.size - m.head)) (m.chunk?.getD n))
  unfold transferSize
  dsimp only
  omega

private theorem read_arrives {bytes : List UInt8} (h : m.read n = .ok bytes m') : m.Arrives n bytes m' := by
  unfold read at h
  split at h
  · cases h
  · rename_i fs hfire
    have hsize := transferSize_le { m with readFaults := fs } n
    have hlength : m.data.toList.length = m.data.size := Array.length_toList
    obtain ⟨rfl, rfl⟩ := EStateM.Result.ok.inj h
    generalize transferSize { m with readFaults := fs } n = k at hsize ⊢
    have hbytes : (m.data.extract m.head (m.head + k)).toList = (m.data.toList.drop m.head).take k := by
      rw [Array.toList_extract, List.extract_eq_take_drop, Nat.add_sub_cancel_left]
    have hk : ((m.data.toList.drop m.head).take k).length = k := by
      rw [List.length_take, List.length_drop]
      dsimp only at hsize
      omega
    rw [hbytes]
    refine ⟨by omega, List.take_prefix _ _, fs, ?_⟩
    rw [hk]

theorem read_error {e : IoError} (h : m.read n = .error e m') : m.MovedBy 0 m' := by
  unfold read at h
  split at h
  · rename_i kind fs hfire
    obtain ⟨-, rfl⟩ := EStateM.Result.error.inj h
    exact ⟨fs, rfl⟩
  · cases h

theorem MovedBy.arrives {bytes : List UInt8} (h : m.MovedBy 0 m') (ha : m'.Arrives n bytes m'') :
    m.Arrives n bytes m'' := by
  have hmoved := h.trans ha.moved
  have hpre := ha.prefix_drop
  rw [Nat.zero_add] at hmoved
  rw [h.data_eq, h.head_eq] at hpre
  exact ⟨ha.le, hpre, hmoved⟩

theorem readSettled_cases (m : Medium) (n : Nat) :
    (∃ bytes m', m.readSettled n = .ok bytes m' ∧ m.Arrives n bytes m') ∨
    ∃ e m', m.readSettled n = .error e m' ∧ m.MovedBy 0 m' := by
  fun_induction readSettled m n with
  | case1 m bytes m' heq => exact .inl ⟨bytes, m', rfl, read_arrives heq⟩
  | case2 m e m' heq hinterrupted ih =>
    -- nothing has moved, and one failure fewer is planned
    have hmoved := read_error heq
    rcases ih with ⟨bytes, m'', hrest, harrives⟩ | ⟨e', m'', hrest, hmoved'⟩
    · exact .inl ⟨bytes, m'', hrest, hmoved.arrives harrives⟩
    · exact .inr ⟨e', m'', hrest, hmoved.trans hmoved'⟩
  | case3 m e m' heq hfinal => exact .inr ⟨e, m', rfl, read_error heq⟩

/-- Whether or not the medium fails, the bytes that have arrived are those that the head has passed. -/
theorem readFully_arrives (m : Medium) (n : Nat) : m.Arrives n (m.readFully n).bytes (m.readFully n).medium := by
  have hnone : ∀ m', m.MovedBy 0 m' → m.Arrives n [] m' := fun m' hmoved => ⟨Nat.zero_le n, List.nil_prefix, hmoved⟩
  have hstill : m.MovedBy 0 m := ⟨m.readFaults, rfl⟩
  induction n using Nat.strongRecOn generalizing m with
  | ind n ih =>
    rw [readFully]
    by_cases hn : n = 0
    · rw [if_pos hn]
      exact hnone m hstill
    · rw [if_neg hn]
      rcases m.readSettled_cases n with ⟨bytes, m', heq, harrives⟩ | ⟨e, m', heq, hmoved⟩
      · rw [heq]
        cases bytes with
        | nil => exact hnone m' harrives.moved
        | cons b bs =>
          obtain ⟨hle, hpre, hmoved⟩ := harrives
          rw [List.length_cons] at hle
          have hlater := ih (n - (bs.length + 1)) (by omega) m'
            (fun _ hmoved' => ⟨Nat.zero_le _, List.nil_prefix, hmoved'⟩) ⟨m'.readFaults, rfl⟩
          refine ⟨?_, ?_, ?_⟩
          · have := hlater.le
            rw [List.length_append, List.length_cons]
            omega
          · -- the later bytes are those at the place where the first transfer has left the head
            have hrest := hlater.prefix_drop
            rw [hmoved.data_eq, hmoved.head_eq, ← List.drop_drop] at hrest
            exact prefix_append_of_drop hpre hrest
          · rw [List.length_append]
            exact hmoved.trans hlater.moved
      · rw [heq]
        exact hnone m' hmoved

end Medium

/-! ### Sources -/

namespace Source

/-- The source reads a medium with this image, which can be moved to any place. -/
structure Over (data : List UInt8) (s : Source) : Prop where
  data_eq : s.medium.data.toList = data
  seekFaults_eq : s.medium.seekFaults = []

/-- The cursor is where the head of the medium is. -/
structure InStep (data : List UInt8) (s : Source) : Prop extends Over data s where
  head_eq : s.medium.head = s.pos

/-- The source with other failures planned. -/
def withFaults (s : Source) (faults : List Fault) : Source :=
  { s with medium := { s.medium with readFaults := faults } }

variable {data : List UInt8} {s : Source}

theorem Over.moved (h : s.Over data) {n : Nat} {m : Medium} (hmoved : s.medium.MovedBy n m) (pos : Nat) :
    Over data { s with medium := m, pos } := by
  constructor
  · show m.data.toList = data
    rw [hmoved.data_eq]
    exact h.data_eq
  · exact hmoved.seekFaults_eq.trans h.seekFaults_eq

theorem InStep.moved (h : s.InStep data) {n : Nat} {m : Medium} (hmoved : s.medium.MovedBy n m) :
    InStep data { s with medium := m, pos := s.pos + n } := by
  refine ⟨h.toOver.moved hmoved _, ?_⟩
  show m.head = s.pos + n
  rw [hmoved.head_eq, h.head_eq]

/-- A medium that has not moved differs in its planned failures only. -/
private theorem eq_withFaults {m : Medium} (hmoved : s.medium.MovedBy 0 m) :
    ∃ faults, ({ s with medium := m } : Source) = s.withFaults faults := by
  obtain ⟨faults, rfl⟩ := hmoved
  exact ⟨faults, rfl⟩

theorem InStep.withFaults (h : s.InStep data) (faults : List Fault) : (s.withFaults faults).InStep data :=
  ⟨⟨h.data_eq, h.seekFaults_eq⟩, h.head_eq⟩

/-- Moving a source brings it in step. -/
theorem Over.seek (h : s.Over data) (pos : Nat) :
    ∃ s', Source.seek pos s = .ok () s' ∧ s'.InStep data ∧ s'.pos = pos := by
  refine ⟨{ s with medium := { s.medium with seekFaults := [], head := pos }, pos }, ?_, ⟨⟨h.data_eq, rfl⟩, rfl⟩, rfl⟩
  simp only [Source.seek, Medium.seek, h.seekFaults_eq, Fault.fire]

/-- Reading one byte gives the byte at the cursor and moves past it, or it changes nothing but the planned failures,
whether the source has ended or fails. -/
theorem InStep.read_cases (h : s.InStep data) :
    (∃ b s', read s = .ok (some b) s' ∧ data[s.pos]? = some b ∧ s'.InStep data ∧ s'.pos = s.pos + 1) ∨
    (∃ faults, read s = .ok none (s.withFaults faults)) ∨
    ∃ e faults, read s = .error e (s.withFaults faults) := by
  unfold read
  by_cases hend : s.size ≤ s.pos
  · right; left
    rw [if_pos hend]
    exact ⟨s.medium.readFaults, rfl⟩
  · rw [if_neg hend]
    rcases s.medium.readSettled_cases 1 with ⟨bytes, m, heq, hle, hpre, hmoved⟩ | ⟨e, m, heq, hmoved⟩
    · rw [heq]
      cases bytes with
      | nil =>
        obtain ⟨faults, hs⟩ := eq_withFaults hmoved
        exact .inr (.inl ⟨faults, by dsimp only; rw [hs]⟩)
      | cons b bs =>
        left
        rw [List.length_cons] at hle
        have hone : (b :: bs).length = 1 := by rw [List.length_cons]; omega
        rw [hone] at hmoved
        rw [h.data_eq, h.head_eq] at hpre
        exact ⟨b, _, rfl, getElem?_of_prefix_drop hpre, h.moved hmoved, rfl⟩
    · obtain ⟨faults, hs⟩ := eq_withFaults hmoved
      rw [heq]
      dsimp only
      right
      split
      · exact .inl ⟨faults, by rw [hs]⟩
      · exact .inr ⟨e, faults, by rw [hs]⟩

/-- A longer read finds the bytes at the cursor; if it fails, the cursor has stayed behind. -/
theorem InStep.readFully (h : s.InStep data) (n : Nat) :
    (s.readFully n).bytes <+: data.drop s.pos ∧ (s.readFully n).source.Over data ∧
      ((s.readFully n).error? = none →
        (s.readFully n).source.InStep data ∧ (s.readFully n).source.pos = s.pos + (s.readFully n).bytes.length) := by
  obtain ⟨-, hpre, hmoved⟩ := s.medium.readFully_arrives n
  rw [h.data_eq, h.head_eq] at hpre
  unfold Source.readFully
  dsimp only
  cases (s.medium.readFully n).error? with
  | none => exact ⟨hpre, h.toOver.moved hmoved _, fun _ => ⟨h.moved hmoved, rfl⟩⟩
  | some e => exact ⟨hpre, h.toOver.moved hmoved _, nofun⟩

/-! ### Actions that leave the medium's image alone -/

/-- The action leaves the source over the same image, whether or not it fails. -/
def Stays {α : Type} (act : EStateM IoError Source α) : Prop :=
  ∀ data s, Over data s →
    match act s with
    | .ok _ s' | .error _ s' => s'.Over data

private theorem stays_seek (pos : Nat) : Stays (Source.seek pos) := by
  intro data s h
  obtain ⟨s', hseek, hstep, -⟩ := h.seek pos
  rw [hseek]
  exact hstep.toOver

private theorem stays_take (n : Nat) : Stays (take n) := by
  intro data s h
  have hmoved := (s.medium.readFully_arrives n).moved
  unfold take Source.readFully
  dsimp only
  cases (s.medium.readFully n).error? with
  | none => exact h.moved hmoved _
  | some e => exact h.moved hmoved _

private theorem Stays.bind {α β : Type} {act : EStateM IoError Source α} {next : α → EStateM IoError Source β}
    (h : Stays act) (hnext : ∀ a, Stays (next a)) : Stays (act >>= next) := by
  intro data s hs
  have hact := h data s hs
  cases heq : act s with
  | error e s' =>
    have hrun : (act >>= next) s = .error e s' := by simp only [Bind.bind, EStateM.bind, heq]
    rw [heq] at hact
    rw [hrun]
    exact hact
  | ok a s' =>
    have hrun : (act >>= next) s = next a s' := by simp only [Bind.bind, EStateM.bind, heq]
    rw [heq] at hact
    rw [hrun]
    exact hnext a data s' hact

theorem inherited_stays : Inherited Stays where
  pure _ := fun _ _ h => h
  seek := stays_seek
  take := stays_take
  bind := Stays.bind

end Source

open Source

variable {data : List UInt8} {s : Source}

namespace Gd3

/-- Reading the metadata, successful or not, leaves the source in step and with the cursor where it was. -/
theorem read_of_over (h : s.Over data) (header : Header) :
    (read header s).source.InStep data ∧ (read header s).source.pos = s.pos := by
  unfold read
  cases header.gd3Start? with
  | none =>
    obtain ⟨s', hseek, hstep, hpos⟩ := h.seek s.pos
    simp only [hseek]
    exact ⟨hstep, hpos⟩
  | some pos =>
    have hover := inherited_stays.readAt pos data s h
    cases hread : readAt pos s with
    | ok found s' =>
      rw [hread] at hover
      obtain ⟨s'', hseek, hstep, hpos⟩ := Over.seek (s := s') hover s.pos
      simp only [hread, hseek]
      exact ⟨hstep, hpos⟩
    | error e s' =>
      rw [hread] at hover
      obtain ⟨s'', hseek, hstep, hpos⟩ := Over.seek (s := s') hover s.pos
      simp only [hread, hseek]
      exact ⟨hstep, hpos⟩

end Gd3

/-- A header that was read leaves the source in step. -/
theorem Header.inStep_of_read {header : Header} {s' : Source} (h : s.Over data)
    (hread : Header.read s = .ok header s') : s'.InStep data := by
  obtain ⟨s₀, hseek, hstep, -⟩ := h.seek 0
  have hfully := (hstep.readFully headerImageSize).2.2
  unfold Header.read at hread
  simp only [bind, EStateM.bind, hseek, take] at hread
  cases herror : (s₀.readFully headerImageSize).error? with
  | some e =>
    rw [herror] at hread
    cases hread
  | none =>
    simp only [herror] at hread
    cases hdec : decode (s₀.readFully headerImageSize).bytes with
    | error e =>
      rw [hdec] at hread
      cases hread
    | ok h' =>
      simp only [hdec] at hread
      split at hread
      · cases hread
      · cases hread
        exact (hfully herror).1

namespace LoopHead

/-- A copy that was taken holds the bytes at the offset, and the source is in step and where it was. -/
theorem snapshot_of_inStep {head head' : LoopHead} {offset : Nat} {s' : Source} (h : s.InStep data)
    (hsnapshot : head.snapshot offset s = (.ok (), head', s')) :
    head'.offset = offset ∧ head'.bytes <+: data.drop offset ∧ s'.InStep data ∧ s'.pos = s.pos := by
  obtain ⟨s₀, hseek, hstep, hpos⟩ := h.toOver.seek offset
  obtain ⟨hpre, hover, -⟩ := hstep.readFully head.capacity
  obtain ⟨s₁, hback, hstep', hpos'⟩ := hover.seek s.pos
  unfold snapshot at hsnapshot
  simp only [hseek, hback] at hsnapshot
  cases herror : (s₀.readFully head.capacity).error? with
  | some e =>
    rw [herror] at hsnapshot
    cases hsnapshot
  | none =>
    rw [herror] at hsnapshot
    cases hsnapshot
    rw [hpos] at hpre
    refine ⟨rfl, ?_, hstep', hpos'⟩
    rw [bytes, Fifo.toList_ofList]
    exact hpre

end LoopHead

end VgmPlayback
