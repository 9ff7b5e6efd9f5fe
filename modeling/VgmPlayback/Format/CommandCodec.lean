import VgmPlayback.Format.Command
import VgmPlayback.Format.Draft

/-!
# Commands as bytes

`Command.decode?` reads a command off the bytes that begin with it, all of it: operands that are passed over
and the contents of a data block must be there.  It is the inverse of what an edit appends, whatever follows
(`Edit.decode?_bytes`), and it takes at least one byte and no more than there are (`bounds_of_decode?`).
-/

namespace VgmPlayback

open LittleEndian

namespace Command

/-- A command with `operands` operand bytes that are passed over. -/
def decodeSkip? (operands : UInt8) (rest : List UInt8) : Option (Command × Nat) :=
  if operands.toNat ≤ rest.length then some (.skip operands, 1 + operands.toNat) else none

/-- The operands of a register write. -/
def decodeWrite? : List UInt8 → Option (Command × Nat)
  | address :: data :: _ => some (.write address data, 3)
  | _ => none

/-- The operands of a wait. -/
def decodeWait? : List UInt8 → Option (Command × Nat)
  | b₀ :: b₁ :: _ => some (.wait (word16 b₀ b₁), 3)
  | _ => none

/-- The marker, type, size and contents of a data block. -/
def decodeBlock? : List UInt8 → Option (Command × Nat)
  | _ :: kind :: b₀ :: b₁ :: b₂ :: b₃ :: contents =>
    let size := word32 b₀ b₁ b₂ b₃
    if size.toNat ≤ contents.length then some (.block kind size, 7 + size.toNat) else none
  | _ => none

/-- The command with this opcode before `rest` and the number of bytes that it takes, the opcode included. -/
def decodeAs? (rest : List UInt8) : Opcode → Option (Command × Nat)
  | .ym2151Write => decodeWrite? rest
  | .waitSamples => decodeWait? rest
  | .waitNtscFrame => some (.wait ntscFrame, 1)
  | .waitPalFrame => some (.wait palFrame, 1)
  | .waitShort samples | .dacWait samples => some (.wait samples.toUInt16, 1)
  | .dataBlock => decodeBlock? rest
  | .secondaryWrite _ => decodeSkip? 2 rest
  | .segaPcmWrite _ => decodeSkip? 3 rest
  | .foreignWrite _ operands => decodeSkip? operands rest
  | .endOfData => some (.endOfData, 1)
  | .unknown byte => some (.unknown byte, 1)

/-- The command with which the bytes begin and the number of bytes that it takes, or `none` if they end
before it does. -/
def decode? : List UInt8 → Option (Command × Nat)
  | [] => none
  | byte :: rest => decodeAs? rest (Opcode.ofByte byte)

private theorem eq_of_decodeSkip? {operands : UInt8} {rest : List UInt8} {r : Command × Nat}
    (h : decodeSkip? operands rest = some r) :
    operands.toNat ≤ rest.length ∧ r = (.skip operands, 1 + operands.toNat) := by
  unfold decodeSkip? at h
  split at h
  · rename_i hle
    exact ⟨hle, (Option.some.inj h).symm⟩
  · cases h

private theorem eq_of_decodeWrite? {rest : List UInt8} {r : Command × Nat} (h : decodeWrite? rest = some r) :
    ∃ address data tail, rest = address :: data :: tail ∧ r = (.write address data, 3) := by
  unfold decodeWrite? at h
  split at h
  · exact ⟨_, _, _, rfl, (Option.some.inj h).symm⟩
  · cases h

private theorem eq_of_decodeWait? {rest : List UInt8} {r : Command × Nat} (h : decodeWait? rest = some r) :
    ∃ b₀ b₁ tail, rest = b₀ :: b₁ :: tail ∧ r = (.wait (word16 b₀ b₁), 3) := by
  unfold decodeWait? at h
  split at h
  · exact ⟨_, _, _, rfl, (Option.some.inj h).symm⟩
  · cases h

private theorem eq_of_decodeBlock? {rest : List UInt8} {r : Command × Nat} (h : decodeBlock? rest = some r) :
    ∃ marker kind b₀ b₁ b₂ b₃ contents, rest = marker :: kind :: b₀ :: b₁ :: b₂ :: b₃ :: contents ∧
      (word32 b₀ b₁ b₂ b₃).toNat ≤ contents.length ∧
      r = (.block kind (word32 b₀ b₁ b₂ b₃), 7 + (word32 b₀ b₁ b₂ b₃).toNat) := by
  unfold decodeBlock? at h
  split at h
  · simp only at h
    split at h
    · rename_i hle
      exact ⟨_, _, _, _, _, _, _, rfl, hle, (Option.some.inj h).symm⟩
    · cases h
  · cases h

/-- A command takes at least one byte and no more than there are. -/
theorem bounds_of_decode? {bytes : List UInt8} {c : Command} {n : Nat} (h : decode? bytes = some (c, n)) :
    0 < n ∧ n ≤ bytes.length := by
  cases bytes with
  | nil => cases h
  | cons byte rest =>
    rw [decode?] at h
    rw [List.length_cons]
    cases hop : Opcode.ofByte byte <;> rw [hop] at h
    case ym2151Write =>
      obtain ⟨a, d, tail, rfl, hr⟩ := eq_of_decodeWrite? h
      cases hr
      simp
    case waitSamples =>
      obtain ⟨b₀, b₁, tail, rfl, hr⟩ := eq_of_decodeWait? h
      cases hr
      simp
    case dataBlock =>
      obtain ⟨m, k, b₀, b₁, b₂, b₃, contents, rfl, hle, hr⟩ := eq_of_decodeBlock? h
      cases hr
      simp only [List.length_cons]
      omega
    case secondaryWrite | segaPcmWrite | foreignWrite =>
      obtain ⟨hle, hr⟩ := eq_of_decodeSkip? h
      cases hr
      omega
    all_goals
      cases h
      omega

end Command

namespace Edit

/-- The command that an edit appends, if it appends one. -/
def command? : Edit → Option Command
  | write address data => some (.write address data)
  | wait samples => some (.wait samples)
  | waitNtscFrame => some (.wait ntscFrame)
  | waitPalFrame => some (.wait palFrame)
  | waitShort samples => some (.wait (UInt16.ofNat (shortSamples samples)))
  | block kind payload => some (.block kind (UInt32.ofNat payload.length))
  | field .. | raw _ | markLoop | metadata _ => none

/-- The bytes of a command that an edit appends mean this command, as long as a data block is smaller than
2^32. -/
theorem decode?_bytes {e : Edit} {c : Command} (hc : e.command? = some c)
    (hsize : e.bytes.length < UInt32.size) (rest : List UInt8) : Command.decode? (e.bytes ++ rest) = some (c, e.bytes.length) := by
  cases e with
  | write address data =>
    cases hc
    rfl
  | wait samples =>
    cases hc
    exact congrArg (fun w => some (Command.wait w, 3)) (word16_bytes16 samples)
  | waitNtscFrame =>
    cases hc
    rfl
  | waitPalFrame =>
    cases hc
    rfl
  | waitShort samples =>
    cases hc
    have key : ∀ k : Fin 16,
        Opcode.ofByte (UInt8.ofNat (0x6F + (k.val + 1))) = .waitShort (UInt8.ofNat (k.val + 1)) := by
      decide
    have hlo : 1 ≤ shortSamples samples := by
      unfold shortSamples
      omega
    have hhi : shortSamples samples ≤ 16 := by
      unfold shortSamples
      omega
    have := key ⟨shortSamples samples - 1, by omega⟩
    simp only [Nat.sub_add_cancel hlo] at this
    simp only [bytes, List.cons_append, List.nil_append, Command.decode?, this, Command.decodeAs?,
      List.length_cons, List.length_nil]
    congr 3
    apply UInt16.toNat_inj.1
    simp only [UInt8.toNat_toUInt16, UInt8.toNat_ofNat', UInt16.toNat_ofNat']
    omega
  | block kind payload =>
    cases hc
    have hn : (UInt32.ofNat payload.length).toNat = payload.length := by
      simp only [bytes, List.length_append, length_bytes32, List.length_cons, List.length_nil,
        UInt32.size] at hsize
      simp only [UInt32.toNat_ofNat']
      omega
    have hw := word32_bytes32 (UInt32.ofNat payload.length)
    have hop : Opcode.ofByte 0x67 = .dataBlock := by decide
    simp only [bytes, bytes32, List.cons_append, List.nil_append, Command.decode?, hop, Command.decodeAs?,
      Command.decodeBlock?, hw]
    simp only [hn, List.length_append, Nat.le_add_right, ↓reduceIte, List.length_cons]
    congr 2
    omega
  | field f w => cases hc
  | raw bytes => cases hc
  | markLoop => cases hc
  | metadata g => cases hc

end Edit

end VgmPlayback
