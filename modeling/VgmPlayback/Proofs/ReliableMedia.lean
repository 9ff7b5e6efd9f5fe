import VgmPlayback.Proofs.FailingMedia

/-!
# What arrives, and when nothing fails

A device hands out nothing only at the end of its image, unless it moves no bytes at all.  So a read that does not
fail brings all that is asked for, as far as it is there, however short the transfers (`Medium.readFully_eq_take`),
and reading from a source is taking from the bytes ahead of the cursor (`Source.Ahead.of_take`).

A medium is reliable when it can be moved to any place and is interrupted at worst (`Medium.Reliable`).  Reading from
it does not fail (`Source.inherited_reliable`).
-/

namespace VgmPlayback

namespace Fault

variable {pos : Nat} {fs : List Fault} {f : Fault} {kind : ErrorKind}

/-- Firing changes how often faults strike, not what they are. -/
theorem exists_kind_eq_of_mem_fire (hf : f ∈ (fire pos fs).2) : ∃ f' ∈ fs, f'.kind = f.kind := by
  induction fs with
  | nil => cases hf
  | cons f₀ fs ih =>
    unfold fire at hf
    split at hf
    · split at hf
      · rcases List.mem_cons.1 hf with rfl | hf
        · exact ⟨f₀, List.mem_cons_self, rfl⟩
        · exact ⟨f, List.mem_cons_of_mem f₀ hf, rfl⟩
      · rcases List.mem_cons.1 hf with rfl | hf
        · exact ⟨f₀, List.mem_cons_self, rfl⟩
        · exact ⟨f, List.mem_cons_of_mem f₀ hf, rfl⟩
    · rcases List.mem_cons.1 hf with rfl | hf
      · exact ⟨f, List.mem_cons_self, rfl⟩
      · obtain ⟨f', hmem, hkind⟩ := ih hf
        exact ⟨f', List.mem_cons_of_mem f₀ hmem, hkind⟩

theorem exists_kind_of_fire_eq_some (h : (fire pos fs).1 = some kind) : ∃ f ∈ fs, f.kind = kind := by
  induction fs with
  | nil => cases h
  | cons f₀ fs ih =>
    unfold fire at h
    split at h
    · split at h
      · cases h
      · exact ⟨f₀, List.mem_cons_self, Option.some.inj h⟩
    · obtain ⟨f, hmem, hkind⟩ := ih h
      exact ⟨f, List.mem_cons_of_mem f₀ hmem, hkind⟩

end Fault

/-! ### Media -/

namespace Medium

/-- The medium can be read to the end of its image, from wherever one likes. -/
structure Reliable (m : Medium) : Prop where
  seekFaults_eq : m.seekFaults = []
  chunk?_ne : m.chunk? ≠ some 0
  interrupted : ∀ f ∈ m.readFaults, f.kind = .interrupted

variable {m m' : Medium} {n : Nat} {bytes : List UInt8}

private theorem foldl_min_pos {fs : List Fault} {head free : Nat} (hfs : ∀ f ∈ fs, head < f.pos) (hfree : 0 < free) :
    0 < fs.foldl (fun k f => min k (f.pos - head)) free := by
  induction fs generalizing free with
  | nil => exact hfree
  | cons f fs ih =>
    rw [List.foldl_cons]
    have hf := hfs f List.mem_cons_self
    exact ih (fun f' hf' => hfs f' (List.mem_cons_of_mem f hf')) (by omega)

private theorem transferSize_pos (hchunk : m.chunk? ≠ some 0) (hn : 0 < n) (hhead : m.head < m.data.size) :
    0 < m.transferSize n := by
  have hsize : 0 < m.chunk?.getD n := by
    cases hc : m.chunk? with
    | none => exact hn
    | some k => exact Nat.pos_of_ne_zero fun hk => hchunk (hc.trans (congrArg some hk))
  refine foldl_min_pos ?_ (by omega)
  intro f hf
  have := (List.mem_filter.1 hf).2
  simp only [Bool.and_eq_true, decide_eq_true_eq] at this
  exact this.2

private theorem ne_nil_of_read (hchunk : m.chunk? ≠ some 0) (hread : m.read n = .ok bytes m') (hn : 0 < n)
    (hhead : m.head < m.data.size) : bytes ≠ [] := by
  unfold read at hread
  split at hread
  · cases hread
  · rename_i fs hfire
    obtain ⟨rfl, -⟩ := EStateM.Result.ok.inj hread
    have hpos := transferSize_pos (m := { m with readFaults := fs }) hchunk hn hhead
    intro hnil
    have hlength := congrArg List.length hnil
    rw [Array.length_toList, Array.size_extract, List.length_nil] at hlength
    dsimp only at hlength
    omega

private theorem ne_nil_of_readSettled (hchunk : m.chunk? ≠ some 0) (hread : m.readSettled n = .ok bytes m')
    (hn : 0 < n) (hhead : m.head < m.data.size) : bytes ≠ [] := by
  fun_induction readSettled m n with
  | case1 m bytes' m'' heq =>
    cases hread
    exact ne_nil_of_read hchunk heq hn hhead
  | case2 m e m'' heq hinterrupted ih =>
    have hmoved := read_error heq
    rw [hmoved.chunk?_eq, hmoved.data_eq, hmoved.head_eq] at ih
    exact ih hchunk hread hhead
  | case3 m e m'' heq hfinal => cases hread

private theorem readFully_enough (hchunk : m.chunk? ≠ some 0) (hread : (m.readFully n).error? = none) :
    min n (m.data.size - m.head) ≤ (m.readFully n).bytes.length := by
  induction n using Nat.strongRecOn generalizing m with
  | ind n ih =>
    rw [readFully] at hread ⊢
    by_cases hn : n = 0
    · omega
    · rw [if_neg hn] at hread ⊢
      rcases m.readSettled_cases n with ⟨bytes, m', heq, -, -, hmoved⟩ | ⟨e, m', heq, -⟩
      · rw [heq] at hread ⊢
        cases bytes with
        | nil =>
          -- nothing was moved, so the image has ended
          have hend : ¬ m.head < m.data.size :=
            fun hhead => ne_nil_of_readSettled hchunk heq (Nat.pos_of_ne_zero hn) hhead rfl
          omega
        | cons b bs =>
          have hhead := hmoved.head_eq
          have hlater := ih (n - (bs.length + 1)) (by omega) (by rw [hmoved.chunk?_eq]; exact hchunk) hread
          rw [hmoved.data_eq] at hlater
          simp only [List.length_append, List.length_cons] at hhead ⊢
          omega
      · rw [heq] at hread
        cases hread

/-- If the medium does not fail, all that is asked for arrives, or all there is. -/
theorem readFully_eq_take (hchunk : m.chunk? ≠ some 0) (hread : (m.readFully n).error? = none) :
    (m.readFully n).bytes = (m.data.toList.drop m.head).take n := by
  obtain ⟨hle, hpre, -⟩ := m.readFully_arrives n
  have henough := readFully_enough hchunk hread
  have hlength := hpre.length_le
  refine (List.prefix_iff_eq_take.1 hpre).trans (List.take_eq_take_iff.2 ?_)
  rw [List.length_drop, Array.length_toList] at hlength ⊢
  omega

namespace Reliable

private theorem fired (h : m.Reliable) (head : Nat) :
    ({ m with readFaults := (Fault.fire m.head m.readFaults).2, head } : Medium).Reliable := by
  refine ⟨h.seekFaults_eq, h.chunk?_ne, ?_⟩
  intro f hf
  obtain ⟨f', hmem, hkind⟩ := Fault.exists_kind_eq_of_mem_fire hf
  rw [← hkind]
  exact h.interrupted f' hmem

/-- Reading moves bytes or is interrupted. -/
private theorem of_read (h : m.Reliable) (n : Nat) :
    match m.read n with
    | .ok _ m' => m'.Reliable
    | .error e m' => e.kind = .interrupted ∧ m'.Reliable := by
  unfold read
  have hfired := h.fired
  cases hfire : Fault.fire m.head m.readFaults with
  | mk kind? fs =>
    rw [hfire] at hfired
    cases kind? with
    | some kind =>
      obtain ⟨f, hmem, hkind⟩ := Fault.exists_kind_of_fire_eq_some (congrArg Prod.fst hfire)
      exact ⟨hkind ▸ h.interrupted f hmem, hfired m.head⟩
    | none => exact hfired _

private theorem readSettled (h : m.Reliable) (n : Nat) :
    ∃ bytes m', m.readSettled n = .ok bytes m' ∧ m'.Reliable := by
  fun_induction Medium.readSettled m n with
  | case1 m bytes m' heq =>
    have hread := h.of_read n
    rw [heq] at hread
    exact ⟨bytes, m', rfl, hread⟩
  | case2 m e m' heq hinterrupted ih =>
    have hread := h.of_read n
    rw [heq] at hread
    exact ih hread.2
  | case3 m e m' heq hfinal =>
    have hread := h.of_read n
    rw [heq] at hread
    exact absurd hread.1 hfinal

/-- A byte that is asked for arrives if it is there. -/
theorem readSettled_one (h : m.Reliable) :
    ∃ m', m.readSettled 1 = .ok ((m.data.toList.drop m.head).take 1) m' ∧ m'.Reliable ∧
      m.MovedBy ((m.data.toList.drop m.head).take 1).length m' := by
  obtain ⟨bytes, m', heq, hreliable⟩ := h.readSettled 1
  rcases m.readSettled_cases 1 with ⟨bytes', m'', heq', hle, hpre, hmoved⟩ | ⟨e, m'', heq', -⟩
  · rw [heq] at heq'
    cases heq'
    have hbytes : bytes = (m.data.toList.drop m.head).take 1 := by
      have hlength := hpre.length_le
      have hsize : m.data.toList.length = m.data.size := Array.length_toList
      refine (List.prefix_iff_eq_take.1 hpre).trans (List.take_eq_take_iff.2 ?_)
      rw [List.length_drop] at hlength ⊢
      by_cases hhead : m.head < m.data.size
      · have hsome := List.length_pos_iff.2 (ne_nil_of_readSettled h.chunk?_ne heq Nat.one_pos hhead)
        omega
      · omega
    rw [← hbytes]
    exact ⟨m', heq, hreliable, hmoved⟩
  · rw [heq] at heq'
    cases heq'

theorem readFully (h : m.Reliable) (n : Nat) :
    (m.readFully n).error? = none ∧ (m.readFully n).medium.Reliable := by
  induction n using Nat.strongRecOn generalizing m with
  | ind n ih =>
    rw [Medium.readFully]
    by_cases hn : n = 0
    · rw [if_pos hn]
      exact ⟨rfl, h⟩
    · rw [if_neg hn]
      obtain ⟨bytes, m', heq, hreliable⟩ := h.readSettled n
      rw [heq]
      cases bytes with
      | nil => exact ⟨rfl, hreliable⟩
      | cons b bs => exact ih (n - (bs.length + 1)) (by omega) hreliable

end Reliable

end Medium

/-! ### Sources -/

namespace Source

/-- The head of the medium is at the cursor, and these are the bytes from there on. -/
structure Ahead (rest : List UInt8) (s : Source) : Prop where
  chunk?_ne : s.medium.chunk? ≠ some 0
  head_eq : s.medium.head = s.pos
  drop_eq : s.medium.data.toList.drop s.pos = rest

variable {rest bytes : List UInt8} {s s' : Source} {n pos : Nat}

theorem eq_of_seek (hseek : seek pos s = .ok () s') :
    ∃ faults, s' = { s with medium := { s.medium with seekFaults := faults, head := pos }, pos } := by
  unfold seek Medium.seek at hseek
  split at hseek
  · rename_i heq
    split at heq
    · cases heq
    · cases heq
      cases hseek
      exact ⟨_, rfl⟩
  · cases hseek

theorem ahead_of_seek (hchunk : s.medium.chunk? ≠ some 0) (hseek : seek pos s = .ok () s') :
    s'.Ahead (s.medium.data.toList.drop pos) := by
  obtain ⟨faults, rfl⟩ := eq_of_seek hseek
  exact ⟨hchunk, rfl, rfl⟩

/-- What is read is taken from the bytes ahead. -/
theorem Ahead.of_take (h : s.Ahead rest) (htake : take n s = .ok bytes s') :
    bytes = rest.take n ∧ s'.Ahead (rest.drop n) := by
  have hmoved := (s.medium.readFully_arrives n).moved
  unfold take readFully at htake
  dsimp only at htake
  cases herror : (s.medium.readFully n).error? with
  | some e =>
    rw [herror] at htake
    cases htake
  | none =>
    have hbytes := Medium.readFully_eq_take h.chunk?_ne herror
    rw [h.head_eq, h.drop_eq] at hbytes
    rw [herror] at htake
    cases htake
    refine ⟨hbytes, ?_, ?_, ?_⟩
    · rw [hmoved.chunk?_eq]
      exact h.chunk?_ne
    · rw [hmoved.head_eq, h.head_eq]
    · rw [hmoved.data_eq, ← List.drop_drop, h.drop_eq, hbytes, List.length_take, List.drop_eq_drop_iff]
      omega

/-- Reading from a reliable medium does not fail, and leaves it reliable. -/
theorem inherited_reliable :
    Inherited fun act => ∀ s : Source, s.medium.Reliable → ∃ a s', act s = .ok a s' ∧ s'.medium.Reliable where
  pure a := fun s h => ⟨a, s, rfl, h⟩
  seek pos := by
    intro s h
    refine ⟨(), { s with medium := { s.medium with seekFaults := [], head := pos }, pos }, ?_, ?_⟩
    · simp only [seek, Medium.seek, h.seekFaults_eq, Fault.fire]
    · exact ⟨rfl, h.chunk?_ne, h.interrupted⟩
  take n := by
    intro s h
    obtain ⟨herror, hreliable⟩ := h.readFully n
    unfold take readFully
    dsimp only
    rw [herror]
    exact ⟨_, _, rfl, hreliable⟩
  bind := by
    intro α β act next hact hnext s h
    obtain ⟨a, s', heq, hreliable⟩ := hact s h
    obtain ⟨b, s'', heq', hreliable'⟩ := hnext a s' hreliable
    refine ⟨b, s'', ?_, hreliable'⟩
    simp only [Bind.bind, EStateM.bind, heq]
    exact heq'

end Source

end VgmPlayback
