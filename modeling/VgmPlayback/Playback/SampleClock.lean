/-!
# The sample clock

One tick per output sample counts down the wait that the last command asked for.  The clock moves only while
a track is ready and its stream has data.  The key facts: several ticks are ticks one by one
(`tickTimes_succ`), and after as many as the wait says the clock has stopped (`not_moves_tickAll`).
-/

namespace VgmPlayback

structure SampleClock where
  /-- A track is loaded and the clock may move. -/
  ready : Bool := false
  /-- The command stream has read ahead at least one byte. -/
  hasData : Bool := false
  /-- Samples left to wait. -/
  wait : UInt16 := 0
deriving DecidableEq, Repr, Inhabited

namespace SampleClock

/-- The next tick counts. -/
def moves (c : SampleClock) : Bool := c.ready && c.hasData && 0 < c.wait

/-- One sample period. -/
def tick (c : SampleClock) : SampleClock :=
  if c.moves then { c with wait := c.wait - 1 } else c

/-- The number of ticks among `n` that count, and the clock after them. -/
def tickTimes (n : Nat) (c : SampleClock) : Nat × SampleClock :=
  if c.ready && c.hasData then
    let moved := min n c.wait.toNat
    (moved, { c with wait := UInt16.ofNat (c.wait.toNat - moved) })
  else (0, c)

/-- The clock after ticks until none counts. -/
def tickAll (c : SampleClock) : SampleClock := (tickTimes c.wait.toNat c).2

/-- Adds the wait of a command; the sum stays at the largest count. -/
def addWait (c : SampleClock) (samples : UInt16) : SampleClock :=
  { c with wait := UInt16.ofNat (min 0xFFFF (c.wait.toNat + samples.toNat)) }

theorem moves_iff {c : SampleClock} :
    c.moves = true ↔ (c.ready && c.hasData) = true ∧ 0 < c.wait.toNat := by
  simp [moves, UInt16.lt_iff_toNat_lt]

/-- A tick that counts takes one sample off the wait. -/
theorem toNat_wait_tick {c : SampleClock} (h : c.moves = true) : c.tick.wait.toNat + 1 = c.wait.toNat := by
  have hpos := (moves_iff.1 h).2
  have hle : (1 : UInt16) ≤ c.wait := UInt16.le_iff_toNat_le.2 hpos
  have hsub := UInt16.toNat_sub_of_le _ _ hle
  have hone : (1 : UInt16).toNat = 1 := rfl
  simp only [tick, h, ↓reduceIte]
  omega

@[simp] theorem ready_tick (c : SampleClock) : c.tick.ready = c.ready := by
  unfold tick; split <;> rfl

@[simp] theorem hasData_tick (c : SampleClock) : c.tick.hasData = c.hasData := by
  unfold tick; split <;> rfl

@[simp] theorem tickTimes_zero (c : SampleClock) : tickTimes 0 c = (0, c) := by
  simp [tickTimes]

/-- Ticking `n + 1` times is ticking once and then `n` times. -/
theorem tickTimes_succ (n : Nat) (c : SampleClock) :
    tickTimes (n + 1) c =
      ((if c.moves then 1 else 0) + (tickTimes n c.tick).1, (tickTimes n c.tick).2) := by
  by_cases hr : (c.ready && c.hasData) = true
  · by_cases hm : c.moves = true
    · have hw := toNat_wait_tick hm
      simp only [tickTimes, ready_tick, hasData_tick, hr, hm, ↓reduceIte]
      refine Prod.ext (by omega) ?_
      have hn : c.wait.toNat - min (n + 1) c.wait.toNat = c.tick.wait.toNat - min n c.tick.wait.toNat := by
        omega
      simp [hn, tick, hm]
    · have hw : c.wait.toNat = 0 := by
        have := mt moves_iff.2 hm
        simp only [hr, true_and] at this
        omega
      simp [tickTimes, tick, hm, hr, hw]
  · have hm : ¬ c.moves = true := fun h => hr (moves_iff.1 h).1
    simp [tickTimes, tick, hm, hr]

/-- Once the wait has been ticked away, or could not be, the clock has stopped. -/
theorem not_moves_tickAll (c : SampleClock) : c.tickAll.moves = false := by
  rw [← Bool.not_eq_true, moves_iff]
  unfold tickAll tickTimes
  by_cases hr : (c.ready && c.hasData) = true <;> simp [hr]

end SampleClock

end VgmPlayback
