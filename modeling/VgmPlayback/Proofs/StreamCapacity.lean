import VgmPlayback.Playback.Playthrough

/-!
# The capacity of a stream

The capacity is set when a stream is made and is one at least (`Playthrough.capacity_pos_of_start`), so an empty
queue always has room.  No operation changes it, whether or not it succeeds: not the operations on streams
(`CommandStream.Steady`), and hence not those on tracks (`Playthrough.capacity_step`).
-/

namespace VgmPlayback

namespace CommandStream

/-- A result that leaves a stream of this capacity behind. -/
def LeavesCapacity {ε α : Type} (capacity : Nat) : EStateM.Result ε CommandStream α → Prop
  | .ok _ s => s.capacity = capacity
  | .error _ s => s.capacity = capacity

/-- The stream afterwards, whether or not what was done has succeeded. -/
def leftBy {ε α : Type} : EStateM.Result ε CommandStream α → CommandStream
  | .ok _ s => s
  | .error _ s => s

theorem leavesCapacity_iff {ε α : Type} {capacity : Nat} {r : EStateM.Result ε CommandStream α} :
    LeavesCapacity capacity r ↔ (leftBy r).capacity = capacity := by
  cases r <;> rfl

/-- What one refill keeps, a row of them does. -/
theorem refillUpTo_keeps {P : CommandStream → Prop} (hrefill : ∀ s, P s → P (leftBy (refill s))) (n : Nat)
    {s : CommandStream} (hs : P s) : P (leftBy (refillUpTo n s)) := by
  induction n generalizing s with
  | zero => exact hs
  | succ n ih =>
    have hs' := hrefill s hs
    unfold refillUpTo
    cases heq : refill s with
    | error e s' =>
      rw [heq] at hs'
      exact hs'
    | ok done s' =>
      rw [heq] at hs'
      cases done with
      | true => exact hs'
      | false => exact ih hs'

/-- An action that leaves the capacity as it is. -/
def Steady {ε α : Type} (act : EStateM ε CommandStream α) : Prop := ∀ s, LeavesCapacity s.capacity (act s)

theorem steady_pure {ε α : Type} (a : α) : Steady (pure a : EStateM ε CommandStream α) := fun _ => rfl

theorem Steady.bind {ε α β : Type} {act : EStateM ε CommandStream α} {next : α → EStateM ε CommandStream β}
    (h : Steady act) (hnext : ∀ a, Steady (next a)) : Steady (act >>= next) := by
  intro s
  have hs := h s
  show LeavesCapacity s.capacity (EStateM.bind act next s)
  unfold EStateM.bind
  cases hact : act s with
  | error e s' =>
    rw [hact] at hs
    exact hs
  | ok a s' =>
    rw [hact] at hs
    have hnext' := hnext a s'
    rw [show s'.capacity = s.capacity from hs] at hnext'
    exact hnext'

theorem steady_refill : Steady refill := by
  intro s
  unfold refill
  split
  · rfl
  · split <;> rfl

theorem steady_refillUpTo (n : Nat) : Steady (refillUpTo n) := by
  intro s
  rw [leavesCapacity_iff]
  refine refillUpTo_keeps (P := fun s' => s'.capacity = s.capacity) (fun s' hs' => ?_) n rfl
  exact (leavesCapacity_iff.1 (steady_refill s')).trans hs'

theorem steady_fill : Steady fill := by
  intro s
  have hs := steady_refillUpTo (s.capacity - s.pending.size) s
  unfold fill
  cases hfill : refillUpTo (s.capacity - s.pending.size) s with
  | error e s' =>
    rw [hfill] at hs
    exact hs
  | ok _ s' =>
    rw [hfill] at hs
    exact hs

theorem steady_consume : Steady consume := by
  intro s
  unfold consume
  by_cases hempty : s.pending.isEmpty = true
  · have hs := steady_refill s
    rw [if_pos hempty]
    cases hrefill : refill s with
    | error e s' =>
      rw [hrefill] at hs
      exact hs
    | ok done s' =>
      rw [hrefill] at hs
      have hs : s'.capacity = s.capacity := hs
      dsimp only
      cases s'.pending.pop? <;> exact hs
  · rw [if_neg hempty]
    dsimp only
    cases s.pending.pop? <;> rfl

theorem steady_consume16 : Steady consume16 :=
  steady_consume.bind fun _ => steady_consume.bind fun _ => steady_pure _

theorem steady_consume32 : Steady consume32 :=
  steady_consume.bind fun _ => steady_consume.bind fun _ => steady_consume.bind fun _ => steady_consume.bind fun _ =>
    steady_pure _

theorem steady_fetch : Steady fetch := by
  refine steady_consume.bind fun b => ?_
  cases Opcode.ofByte b with
  | ym2151Write => exact steady_consume.bind fun _ => steady_consume.bind fun _ => steady_pure _
  | waitSamples => exact steady_consume16.bind fun _ => steady_pure _
  | dataBlock =>
    exact steady_consume.bind fun _ => steady_consume.bind fun _ => steady_consume32.bind fun _ => steady_pure _
  | _ => exact steady_pure _

theorem steady_discard (count : UInt32) : Steady (discard count) := by
  intro s
  unfold discard
  dsimp only
  split
  · rfl
  · split <;> rfl

theorem steady_inject (head : LoopHead) : Steady head.inject := by
  intro s
  unfold LoopHead.inject
  dsimp only
  split <;> rfl

end CommandStream

namespace Playthrough

theorem capacity_pos_of_start {source : Source} {capacity headCapacity : Nat} {p : Playthrough}
    (h : start source capacity headCapacity = .ok p) : 0 < p.stream.capacity := by
  unfold start at h
  split at h
  · cases h
  · rename_i header source' hread
    split at h
    · cases h
    · rename_i source'' hseek
      have hfill := CommandStream.steady_fill (.ofSource source'' capacity)
      split at h
      · cases h
      · rename_i stream heq
        rw [heq] at hfill
        have hfill : stream.capacity = max capacity 1 := hfill
        split at h
        · cases h
        · cases h
          show 0 < stream.capacity
          omega

theorem capacity_loadMetadata (p : Playthrough) : p.loadMetadata.2.1.stream.capacity = p.stream.capacity := by
  unfold loadMetadata
  dsimp only
  split <;> rfl

theorem capacity_refill (p : Playthrough) (clock : SampleClock) :
    (p.refill clock).2.1.stream.capacity = p.stream.capacity := by
  have hs := CommandStream.steady_refill p.stream
  unfold refill
  cases hrefill : CommandStream.refill p.stream <;> rw [hrefill] at hs <;> exact hs

private theorem capacity_passOver (p : Playthrough) (clock : SampleClock) (count : UInt32) (notices : List Notice) :
    (p.passOver clock count notices).track.stream.capacity = p.stream.capacity := by
  have hs := CommandStream.steady_discard count p.stream
  unfold passOver
  cases hdiscard : p.stream.discard count <;> rw [hdiscard] at hs <;> exact hs

private theorem capacity_restart (p : Playthrough) (clock : SampleClock) :
    (p.restart clock).track.stream.capacity = p.stream.capacity := by
  have hs := CommandStream.steady_inject p.loopHead p.stream.reset
  unfold restart
  cases hinject : p.loopHead.inject p.stream.reset <;> rw [hinject] at hs <;> exact hs

theorem capacity_step (p : Playthrough) (clock : SampleClock) :
    (p.step clock).track.stream.capacity = p.stream.capacity := by
  have hs := CommandStream.steady_fetch p.stream
  unfold step
  cases hfetch : p.stream.fetch with
  | error e stream =>
    rw [hfetch] at hs
    exact hs
  | ok c stream =>
    rw [hfetch] at hs
    have hs : stream.capacity = p.stream.capacity := hs
    cases c with
    | skip operands => exact (capacity_passOver { p with stream } clock _ _).trans hs
    | block kind size => exact (capacity_passOver { p with stream } clock _ _).trans hs
    | endOfData => exact (capacity_restart { p with stream } clock).trans hs
    | _ => exact hs

end Playthrough

end VgmPlayback
