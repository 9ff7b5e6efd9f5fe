import VgmPlayback.Storage.Error

/-!
# Storage media

A `Medium` is the device behind a track: a byte image with a read head, which may announce more bytes than
it holds, hand out few bytes at a time, and fail at given places.  `read` is one transfer; `readSettled`
repeats it while the device interrupts it, and `readFully` goes on until the wanted bytes are there or the
image ends.  Both loops end because each failure uses up a planned fault and each transfer moves the head.
-/

namespace VgmPlayback

/-- A planned failure: operations at `pos` fail `times` times, after the first `after` of them went well. -/
structure Fault where
  pos : Nat
  kind : ErrorKind
  times : Nat
  after : Nat
deriving DecidableEq, Repr

namespace Fault

/-- What the planned faults do to an operation at `pos`, and the plan afterwards.  The first fault there
with a failure left decides. -/
def fire (pos : Nat) : List Fault → Option ErrorKind × List Fault
  | [] => (none, [])
  | f :: fs =>
    if f.pos = pos ∧ 0 < f.times then
      if 0 < f.after then (none, { f with after := f.after - 1 } :: fs)
      else (some f.kind, { f with times := f.times - 1 } :: fs)
    else ((fire pos fs).1, f :: (fire pos fs).2)

/-- The number of failures left in a plan. -/
def left (fs : List Fault) : Nat := fs.foldr (fun f n => f.times + n) 0

theorem left_fire_of_some {pos : Nat} {fs : List Fault} {kind : ErrorKind} (h : (fire pos fs).1 = some kind) :
    left (fire pos fs).2 < left fs := by
  induction fs with
  | nil => simp [fire] at h
  | cons f fs ih =>
    unfold fire at h ⊢
    by_cases hf : f.pos = pos ∧ 0 < f.times
    · by_cases ha : 0 < f.after
      · simp [hf, ha] at h
      · simp only [hf, ha, and_self, ↓reduceIte, left, List.foldr_cons]
        omega
    · simp only [hf, ↓reduceIte, left, List.foldr_cons] at h ⊢
      have := ih h
      simp only [left] at this
      omega

end Fault

/-- A byte image with a read head. -/
structure Medium where
  data : Array UInt8
  /-- Bytes announced beyond the end of the image. -/
  phantom : Nat := 0
  /-- The most bytes that one transfer moves. -/
  chunk? : Option Nat := none
  readFaults : List Fault := []
  seekFaults : List Fault := []
  head : Nat := 0
deriving Repr

namespace Medium

/-- The size that the device announces. -/
def extent (m : Medium) : Nat := m.data.size + m.phantom

/-- Moves the head to `pos`. -/
def seek (m : Medium) (pos : Nat) : EStateM.Result IoError Medium Unit :=
  match Fault.fire pos m.seekFaults with
  | (some kind, fs) => .error (.seekFault kind pos) { m with seekFaults := fs }
  | (none, fs) => .ok () { m with seekFaults := fs, head := pos }

/-- The bytes that a transfer of at most `n` moves: it stops at the end of the image, at the chunk size, and
short of the next planned fault. -/
def transferSize (m : Medium) (n : Nat) : Nat :=
  let free := min (min n (m.data.size - m.head)) (m.chunk?.getD n)
  (m.readFaults.filter fun f => 0 < f.times && m.head < f.pos).foldl (fun k f => min k (f.pos - m.head)) free

/-- One transfer of at most `n` bytes; none are moved at the end of the image. -/
def read (m : Medium) (n : Nat) : EStateM.Result IoError Medium (List UInt8) :=
  match Fault.fire m.head m.readFaults with
  | (some kind, fs) => .error (.readFault kind m.head) { m with readFaults := fs }
  | (none, fs) =>
    let m := { m with readFaults := fs }
    let k := m.transferSize n
    .ok (m.data.extract m.head (m.head + k)).toList { m with head := m.head + k }

theorem left_read_of_error {m m' : Medium} {n : Nat} {e : IoError} (h : m.read n = .error e m') :
    Fault.left m'.readFaults < Fault.left m.readFaults := by
  unfold read at h
  split at h
  · rename_i kind fs hf
    cases h
    have : (Fault.fire m.head m.readFaults).1 = some kind := by rw [hf]
    simpa [hf] using Fault.left_fire_of_some this
  · cases h

/-- One transfer, repeated while the device interrupts it. -/
def readSettled (m : Medium) (n : Nat) : EStateM.Result IoError Medium (List UInt8) :=
  match _h : m.read n with
  | .ok bytes m' => .ok bytes m'
  | .error e m' => if e.kind = .interrupted then m'.readSettled n else .error e m'
termination_by Fault.left m.readFaults
decreasing_by exact left_read_of_error _h

/-- The bytes that arrived, the failure that cut them off if there was one, and the device afterwards. -/
structure Transfer where
  bytes : List UInt8
  error? : Option IoError
  medium : Medium

/-- Reads until `n` bytes have arrived, the image ends, or the device fails. -/
def readFully (m : Medium) (n : Nat) : Transfer :=
  if n = 0 then ⟨[], none, m⟩
  else match m.readSettled n with
    | .error e m' => ⟨[], some e, m'⟩
    | .ok [] m' => ⟨[], none, m'⟩
    | .ok (b :: bs) m' =>
      let later := m'.readFully (n - (bs.length + 1))
      { later with bytes := b :: bs ++ later.bytes }
termination_by n
decreasing_by omega

end Medium

end VgmPlayback
