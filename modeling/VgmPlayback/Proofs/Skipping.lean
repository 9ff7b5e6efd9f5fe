import VgmPlayback.Proofs.FirstInFirstOut

/-!
# Skipping and reading

Passing over bytes drops those that the queue holds and moves the source by the rest; reading them takes them one by
one, and tops the queue up with a byte whenever it has run dry.  Both come to the same stream:

* (place) reading `n` bytes moves the stream by `n` (`StandsAt.consumeTimes_of_le`), as passing over them does;
* (queue) both leave `n` bytes fewer in the queue, down to none (`size_of_consume`, `size_of_discard`), and how many
  there are tells which (`After.eq_of_size_eq`).

Neither can be done beyond the end of the image (`discard_eq_consumeTimes`).
-/

namespace VgmPlayback

namespace CommandStream

variable {s s' s'' : CommandStream} {image : List UInt8} {c n : Nat}

/-- The next `n` bytes, read one by one. -/
def consumeTimes : Nat → EStateM FormatError CommandStream (List UInt8)
  | 0 => pure []
  | n + 1 => do
    let b ← consume
    return b :: (← consumeTimes n)

/-! ### Queue -/

theorem size_of_refill {done : Bool} (hrefill : refill s = .ok done s') : s'.pending.size ≤ s.pending.size + 1 := by
  unfold refill at hrefill
  split at hrefill
  · cases hrefill
    exact Nat.le_add_right _ _
  · split at hrefill <;> cases hrefill
    · exact Nat.le_refl _
    · exact Nat.le_add_right _ _

theorem size_of_consume {b : UInt8} (hconsume : consume s = .ok b s') :
    s'.pending.size = s.pending.size - 1 := by
  unfold consume at hconsume
  split at hconsume
  · cases hconsume
  · rename_i done s₁ htopped
    split at hconsume
    · cases hconsume
    · rename_i b' pending hpop
      cases hconsume
      have hpopped := Fifo.size_of_pop? hpop
      show pending.size = s.pending.size - 1
      split at htopped
      · -- the byte was read for this, and nothing stays behind it
        rename_i hempty
        rw [Fifo.isEmpty_iff_size] at hempty
        have hrefilled := size_of_refill htopped
        omega
      · cases htopped
        omega

theorem size_of_discard {count : UInt32} (hdiscard : discard count s = .ok () s') :
    s'.pending.size = s.pending.size - count.toNat := by
  have hkept : (s.pending.drop (min count.toNat s.pending.size)).size = s.pending.size - count.toNat := by
    rw [Fifo.size_drop]
    omega
  unfold discard at hdiscard
  dsimp only at hdiscard
  split at hdiscard
  · cases hdiscard
  · split at hdiscard <;> cases hdiscard
    exact hkept

/-! ### Place -/

/-- Of two streams that have come equally far, with equally many bytes read ahead, nothing differs but how the queue
is laid out. -/
theorem After.eq_of_size_eq (h' : After image c n s s') (h'' : After image c n s s'')
    (hsize : s'.pending.size = s''.pending.size) :
    s'.pending.toList = s''.pending.toList ∧ s'.source = s''.source ∧ s'.bufferPos = s''.bufferPos ∧
      s'.cmdPos = s''.cmdPos ∧ s'.capacity = s''.capacity := by
  refine ⟨?_, ?_, h'.bufferPos_eq.trans h''.bufferPos_eq.symm, h'.cmdPos_eq.trans h''.cmdPos_eq.symm,
    h'.capacity_eq.trans h''.capacity_eq.symm⟩
  · rw [h'.standsAt.pending_eq, h''.standsAt.pending_eq, hsize]
  · rw [h'.standsAt.source_eq, h''.standsAt.source_eq, hsize]

theorem StandsAt.consumeTimes_of_le (n : Nat) (h : s.StandsAt image c) (hle : n ≤ image.length - c) :
    ∃ s', consumeTimes n s = .ok (image.extract c (c + n)) s' ∧ After image c n s s' ∧
      s'.pending.size = s.pending.size - n := by
  induction n generalizing c s with
  | zero =>
    refine ⟨s, ?_, h.after_zero, rfl⟩
    rw [Nat.add_zero, List.extract_eq_take_drop, Nat.sub_self, List.take_zero]
    rfl
  | succ n ih =>
    have hlt : c < image.length := by omega
    obtain ⟨s₁, hconsume, hafter⟩ := h.consume_of_lt hlt
    have hsize := size_of_consume hconsume
    obtain ⟨s', hrest, hafter', hsize'⟩ := ih hafter.standsAt (by omega)
    have hbytes : image.extract c (c + (n + 1)) = image[c] :: image.extract (c + 1) (c + 1 + n) := by
      rw [List.extract_eq_take_drop, List.extract_eq_take_drop, Nat.add_sub_cancel_left, Nat.add_sub_cancel_left,
        List.drop_eq_getElem_cons hlt, List.take_succ_cons]
    refine ⟨s', ?_, ?_, by omega⟩
    · simp only [consumeTimes, Bind.bind, EStateM.bind, hconsume, hrest, hbytes]
      rfl
    · rw [Nat.add_comm n 1]
      exact hafter.trans hafter'

theorem StandsAt.consumeTimes_of_lt (n : Nat) (h : s.StandsAt image c) (hlt : image.length - c < n) :
    ∃ s', consumeTimes n s = .error .unexpectedEof s' := by
  induction n generalizing c s with
  | zero => omega
  | succ n ih =>
    by_cases hend : image.length ≤ c
    · exact ⟨s, by simp only [consumeTimes, Bind.bind, EStateM.bind, h.consume_of_le hend]⟩
    · obtain ⟨s₁, hconsume, hafter⟩ := h.consume_of_lt (Nat.lt_of_not_le hend)
      obtain ⟨s', hrest⟩ := ih hafter.standsAt (by omega)
      exact ⟨s', by simp only [consumeTimes, Bind.bind, EStateM.bind, hconsume, hrest]⟩

/-! ### Numbers -/

/-- The bytes in the queue and those left in the source are the rest of the image. -/
theorem StandsAt.size_add_remaining (h : s.StandsAt image c) :
    s.pending.size + s.source.remaining = image.length - c := by
  have hsize := h.size_le
  rw [h.remaining_eq]
  omega

/-- The part of a count that the queue covers is a word, and taking it from the count leaves the rest. -/
theorem toNat_sub_ofNat_min (count : UInt32) (size : Nat) :
    (UInt32.ofNat (min count.toNat size)).toNat = min count.toNat size ∧
      (count - UInt32.ofNat (min count.toNat size)).toNat = count.toNat - size := by
  have hcount := count.toNat_lt
  have hmin : (UInt32.ofNat (min count.toNat size)).toNat = min count.toNat size :=
    UInt32.toNat_ofNat_of_lt' (by rw [UInt32.size]; omega)
  refine ⟨hmin, ?_⟩
  rw [UInt32.toNat_sub_of_le _ _ (by rw [UInt32.le_iff_toNat_le, hmin]; omega), hmin]
  omega

end CommandStream

namespace Reader

open CommandStream

variable {image : List UInt8} {k capacity headCapacity : Nat}

/-- Wherever a reader of an image in memory has come to, and whatever its counters say, passing over bytes comes to the
same stream as reading them one by one, if they are all there.  If they are not, passing over them changes nothing, and
reading them fails too.  No number on the way is larger than the image is long or smaller than zero: not the bytes that
there are still, not the part of the count that the queue covers, not what that leaves, and not the place that the
source moves to. -/
theorem discard_eq_consumeTimes (image : List UInt8) (k capacity headCapacity : Nat) (uses : List Use)
    (bufferPos cmdPos count : UInt32) :
    let s := { ((fresh image k capacity headCapacity).useAll uses).stream with bufferPos, cmdPos }
    (count.toNat ≤ s.pending.size + s.source.remaining → ∃ s' s'', s.discard count = .ok () s' ∧
      s.consumeTimes count.toNat = .ok (image.extract s.cursor (s.cursor + count.toNat)) s'' ∧
      s'.pending.toList = s''.pending.toList ∧ s'.source = s''.source ∧ s'.bufferPos = s''.bufferPos ∧
      s'.cmdPos = s''.cmdPos ∧ s'.capacity = s''.capacity ∧
      (0 < count.toNat - s.pending.size → s.source.pos + (count.toNat - s.pending.size) ≤ image.length)) ∧
    (s.pending.size + s.source.remaining < count.toNat → s.discard count = .error .unexpectedEof s ∧
      ∃ s'', s.consumeTimes count.toNat = .error .unexpectedEof s'') ∧
    s.pending.size + s.source.remaining ≤ image.length ∧
    (UInt32.ofNat (min count.toNat s.pending.size)).toNat = min count.toNat s.pending.size ∧
    (count - UInt32.ofNat (min count.toNat s.pending.size)).toNat = count.toNat - s.pending.size := by
  intro s
  have hstands := ((sound_fresh image k capacity headCapacity).useAll uses).stands
  have hs : s.StandsAt image s.cursor := ⟨hstands.source_eq, hstands.pending_eq, hstands.capacity_pos⟩
  have hleft := hs.size_add_remaining
  obtain ⟨hmin, hsub⟩ := toNat_sub_ofNat_min count s.pending.size
  refine ⟨fun hle => ?_, fun hlt => ?_, by omega, hmin, hsub⟩
  · rw [hleft] at hle
    obtain ⟨s', hdiscard, hafter'⟩ := hs.discard_of_le hle
    obtain ⟨s'', hconsume, hafter'', hsize''⟩ := hs.consumeTimes_of_le count.toNat hle
    obtain ⟨hpending, hsource, hbufferPos, hcmdPos, hcapacity⟩ :=
      hafter'.eq_of_size_eq hafter'' ((size_of_discard hdiscard).trans hsize''.symm)
    refine ⟨s', s'', hdiscard, hconsume, hpending, hsource, hbufferPos, hcmdPos, hcapacity, fun hrest => ?_⟩
    have hpos : s.source.pos = s.cursor + s.pending.size := by rw [hs.source_eq, Source.pos_inImage]
    omega
  · rw [hleft] at hlt
    exact ⟨hs.discard_of_lt hlt, hs.consumeTimes_of_lt count.toNat hlt⟩

/-- Two bytes are read ahead from the second one on.  Four bytes are two more than the queue holds, and one counter
wraps at the second of them; six are one more than there are. -/
theorem discard_eq_consumeTimes_across :
    let s := { ((fresh [0x10, 0x11, 0x12, 0x13, 0x14, 0x15] 1 2 0).useAll [.fill]).stream with
      bufferPos := 0, cmdPos := 0xFFFFFFFE }
    s.pending.size = 2 ∧
    (∃ s' s'', s.discard 4 = .ok () s' ∧ s.consumeTimes 4 = .ok [0x11, 0x12, 0x13, 0x14] s'' ∧
      s'.pending.toList = s''.pending.toList ∧ s'.source = s''.source ∧ s'.cmdPos = s''.cmdPos) ∧
    s.discard 6 = .error .unexpectedEof s ∧ ∃ s'', s.consumeTimes 6 = .error .unexpectedEof s'' := by
  intro s
  have hsize : s.pending.size = 2 := by decide +kernel
  have hremaining : s.source.remaining = 3 := by decide +kernel
  have hcursor : s.cursor = 1 := by decide +kernel
  obtain ⟨s', s'', hdiscard, hconsume, hpending, hsource, -, hcmdPos, -⟩ :=
    (discard_eq_consumeTimes [0x10, 0x11, 0x12, 0x13, 0x14, 0x15] 1 2 0 [.fill] 0 0xFFFFFFFE 4).1
      (by show _ ≤ s.pending.size + s.source.remaining; rw [hsize, hremaining]; decide)
  refine ⟨hsize, ⟨s', s'', hdiscard, hconsume.trans ?_, hpending, hsource, hcmdPos⟩, ?_⟩
  · show EStateM.Result.ok (List.extract _ s.cursor (s.cursor + _)) _ = _
    rw [hcursor]
    rfl
  · exact (discard_eq_consumeTimes [0x10, 0x11, 0x12, 0x13, 0x14, 0x15] 1 2 0 [.fill] 0 0xFFFFFFFE 6).2.1
      (by show s.pending.size + s.source.remaining < _; rw [hsize, hremaining]; decide)

end Reader

end VgmPlayback
