/-!
# Little-endian words

Sixteen- and thirty-two-bit words as bytes, least significant byte first.  The key facts: each word is read
back from its own bytes (`word16_bytes16`, `word32_bytes32`), and a word written into a byte list is the
word found there afterwards (`word32At?_setWord32`).
-/

namespace VgmPlayback.LittleEndian

/-- The word with low byte `b₀` and high byte `b₁`. -/
def word16 (b₀ b₁ : UInt8) : UInt16 :=
  UInt16.ofNat (b₀.toNat + 0x100 * b₁.toNat)

/-- The word with the bytes `b₀` (lowest) to `b₃` (highest). -/
def word32 (b₀ b₁ b₂ b₃ : UInt8) : UInt32 :=
  UInt32.ofNat (b₀.toNat + 0x100 * b₁.toNat + 0x10000 * b₂.toNat + 0x1000000 * b₃.toNat)

def bytes16 (w : UInt16) : List UInt8 :=
  [UInt8.ofNat w.toNat, UInt8.ofNat (w.toNat / 0x100)]

def bytes32 (w : UInt32) : List UInt8 :=
  [UInt8.ofNat w.toNat, UInt8.ofNat (w.toNat / 0x100), UInt8.ofNat (w.toNat / 0x10000),
    UInt8.ofNat (w.toNat / 0x1000000)]

/-- The word whose four bytes start at `off`, or `none` when they are not all there. -/
def word32At? (bytes : List UInt8) (off : Nat) : Option UInt32 :=
  match bytes.drop off with
  | b₀ :: b₁ :: b₂ :: b₃ :: _ => some (word32 b₀ b₁ b₂ b₃)
  | _ => none

/-- Overwrites the four bytes at `off`, which must lie within the list. -/
def setWord32 (bytes : List UInt8) (off : Nat) (w : UInt32) : List UInt8 :=
  bytes.take off ++ bytes32 w ++ bytes.drop (off + 4)

@[simp] theorem length_bytes16 (w : UInt16) : (bytes16 w).length = 2 := rfl

@[simp] theorem length_bytes32 (w : UInt32) : (bytes32 w).length = 4 := rfl

theorem word16_bytes16 (w : UInt16) :
    word16 (UInt8.ofNat w.toNat) (UInt8.ofNat (w.toNat / 0x100)) = w := by
  have := w.toNat_lt
  apply UInt16.toNat_inj.1
  simp only [word16, UInt16.toNat_ofNat', UInt8.toNat_ofNat']
  omega

theorem word32_bytes32 (w : UInt32) :
    word32 (UInt8.ofNat w.toNat) (UInt8.ofNat (w.toNat / 0x100)) (UInt8.ofNat (w.toNat / 0x10000))
      (UInt8.ofNat (w.toNat / 0x1000000)) = w := by
  have := w.toNat_lt
  apply UInt32.toNat_inj.1
  simp only [word32, UInt32.toNat_ofNat', UInt8.toNat_ofNat']
  omega

theorem word32At?_append (before : List UInt8) (w : UInt32) (after : List UInt8) :
    word32At? (before ++ (bytes32 w ++ after)) before.length = some w := by
  simp only [word32At?, List.drop_left]
  exact congrArg some (word32_bytes32 w)

theorem word32At?_setWord32 {bytes : List UInt8} {off : Nat} (h : off + 4 ≤ bytes.length) (w : UInt32) :
    word32At? (setWord32 bytes off w) off = some w := by
  have hlen : (bytes.take off).length = off := by simp; omega
  have := word32At?_append (bytes.take off) w (bytes.drop (off + 4))
  rwa [hlen, ← List.append_assoc] at this

end VgmPlayback.LittleEndian
