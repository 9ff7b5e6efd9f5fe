/-!
# Byte queues

A first-in first-out queue of bytes as two lists, the front in order and the back reversed, with its size at
hand. `toList` is the view: pushing appends a byte (`toList_push`), popping takes the first one off
(`toList_pop?`), and the size is the length of the view (`size_eq_length`).  A row of pushes and pops takes
time in its own length only, whatever the size of the queue.
-/

namespace VgmPlayback

structure Fifo where
  front : List UInt8 := []
  back : List UInt8 := []
  size : Nat := 0
  size_eq : size = front.length + back.length := by simp

namespace Fifo

/-- The bytes, oldest first. -/
def toList (q : Fifo) : List UInt8 := q.front ++ q.back.reverse

def empty : Fifo := {}

instance : EmptyCollection Fifo := ⟨empty⟩

instance : Inhabited Fifo := ⟨empty⟩

def ofList (bytes : List UInt8) : Fifo where
  front := bytes
  size := bytes.length

def isEmpty (q : Fifo) : Bool := q.size == 0

/-- Appends a byte. -/
def push (q : Fifo) (b : UInt8) : Fifo where
  front := q.front
  back := b :: q.back
  size := q.size + 1
  size_eq := by have := q.size_eq; simp; omega

/-- The oldest byte and the others. -/
def pop? (q : Fifo) : Option (UInt8 × Fifo) :=
  match h : q.front with
  | b :: front =>
    have hsize : q.size - 1 = front.length + q.back.length := by
      have := q.size_eq
      rw [h, List.length_cons] at this
      omega
    some (b, { front, back := q.back, size := q.size - 1, size_eq := hsize })
  | [] =>
    match q.back.reverse with
    | [] => none
    | b :: front => some (b, ofList front)

/-- Drops the oldest `n` bytes, or all of them if there are fewer. -/
def drop (q : Fifo) : Nat → Fifo
  | 0 => q
  | n + 1 =>
    match q.pop? with
    | none => q
    | some (_, q) => q.drop n

/-- The oldest `n` bytes, or all of them if there are fewer. -/
def take (q : Fifo) (n : Nat) : Fifo :=
  if q.size ≤ n then q
  else
    let head := q.front.take n
    ofList (head ++ q.back.reverse.take (n - head.length))

@[simp] theorem toList_empty : (∅ : Fifo).toList = [] := rfl

@[simp] theorem toList_ofList (bytes : List UInt8) : (ofList bytes).toList = bytes := by
  simp [ofList, toList]

@[simp] theorem toList_push (q : Fifo) (b : UInt8) : (q.push b).toList = q.toList ++ [b] := by
  simp [push, toList]

theorem size_eq_length (q : Fifo) : q.size = q.toList.length := by
  simp [toList, q.size_eq]

@[simp] theorem isEmpty_iff (q : Fifo) : q.isEmpty = true ↔ q.toList = [] := by
  simp [isEmpty, size_eq_length]

/-- Popping takes the first byte of the view off, and fails exactly on the empty queue. -/
theorem toList_pop? (q : Fifo) :
    (q.pop?.map fun r => (r.1, r.2.toList)) = q.toList.head?.map fun b => (b, q.toList.tail) := by
  unfold pop?
  split
  · rename_i b front h
    simp [toList, h]
  · rename_i h
    split
    · rename_i hb
      simp [toList, h, hb]
    · rename_i b front hb
      simp only [Option.map_some, toList_ofList]
      simp [toList, h, hb]

theorem toList_of_pop? {q q' : Fifo} {b : UInt8} (hpop : q.pop? = some (b, q')) : q.toList = b :: q'.toList := by
  have hview := q.toList_pop?
  rw [hpop] at hview
  cases hlist : q.toList with
  | nil =>
    rw [hlist] at hview
    cases hview
  | cons b' bs =>
    rw [hlist] at hview
    cases hview
    rfl

theorem size_of_pop? {q q' : Fifo} {b : UInt8} (hpop : q.pop? = some (b, q')) : q.size = q'.size + 1 := by
  rw [size_eq_length, toList_of_pop? hpop, List.length_cons, size_eq_length]

@[simp] theorem toList_drop (q : Fifo) (n : Nat) : (q.drop n).toList = q.toList.drop n := by
  induction n generalizing q with
  | zero => rfl
  | succ n ih =>
    have hpop := toList_pop? q
    unfold drop
    cases hq : q.pop? with
    | none =>
      rw [hq] at hpop
      cases hl : q.toList with
      | nil => simp
      | cons b bs => simp [hl] at hpop
    | some r =>
      rw [hq] at hpop
      cases hl : q.toList with
      | nil => simp [hl] at hpop
      | cons b bs =>
        simp only [hl, Option.map_some, List.head?_cons, List.tail_cons, Option.some.injEq,
          Prod.mk.injEq] at hpop
        rw [ih, hpop.2, List.drop_succ_cons]

@[simp] theorem toList_take (q : Fifo) (n : Nat) : (q.take n).toList = q.toList.take n := by
  unfold take
  split
  · rename_i h
    rw [List.take_of_length_le (by rw [← size_eq_length]; exact h)]
  · have hn : n - min n q.front.length = n - q.front.length := by omega
    rw [toList_ofList]
    simp [toList, List.take_append, hn]

@[simp] theorem size_drop (q : Fifo) (n : Nat) : (q.drop n).size = q.size - n := by
  rw [size_eq_length, toList_drop, List.length_drop, size_eq_length]

@[simp] theorem size_take (q : Fifo) (n : Nat) : (q.take n).size = min n q.size := by
  rw [size_eq_length, toList_take, List.length_take, size_eq_length]

theorem isEmpty_iff_size (q : Fifo) : q.isEmpty = true ↔ q.size = 0 := by
  rw [isEmpty, beq_iff_eq]

end Fifo

end VgmPlayback
