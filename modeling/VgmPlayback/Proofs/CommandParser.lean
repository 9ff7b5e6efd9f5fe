import VgmPlayback.Format.CommandCodec

/-!
# Parsers of commands

A parser tells what stands at the start of some bytes and how many bytes it takes.  Decoding a command is
parsing its head, the opcode and the operands that matter, and then passing over the bytes that belong to it
(`decode?_eq_andThen`).
-/

namespace VgmPlayback

/-- What stands at the start of some bytes and how many bytes it takes, or `none` if they end before it does. -/
abbrev ByteParser (α : Type) := List UInt8 → Option (α × Nat)

namespace ByteParser

def done {α : Type} (a : α) : ByteParser α := fun _ => some (a, 0)

def byte : ByteParser UInt8
  | [] => none
  | b :: _ => some (b, 1)

def passBytes (count : Nat) : ByteParser Unit := fun bytes =>
  if count ≤ bytes.length then some ((), count) else none

/-- What `p` finds, and then what `q` finds behind it. -/
def andThen {α β : Type} (p : ByteParser α) (q : α → ByteParser β) : ByteParser β := fun bytes =>
  match p bytes with
  | none => none
  | some (a, n) => (q a (bytes.drop n)).map fun r => (r.1, n + r.2)

def word16 : ByteParser UInt16 :=
  byte.andThen fun b₀ => byte.andThen fun b₁ => done (LittleEndian.word16 b₀ b₁)

def word32 : ByteParser UInt32 :=
  byte.andThen fun b₀ => byte.andThen fun b₁ => byte.andThen fun b₂ => byte.andThen fun b₃ =>
    done (LittleEndian.word32 b₀ b₁ b₂ b₃)

/-- A command without the bytes that are passed over. -/
def commandHead : ByteParser Command := byte.andThen fun opcode =>
  match Opcode.ofByte opcode with
  | .ym2151Write => byte.andThen fun address => byte.andThen fun data => done (.write address data)
  | .waitSamples => word16.andThen fun samples => done (.wait samples)
  | .waitNtscFrame => done (.wait ntscFrame)
  | .waitPalFrame => done (.wait palFrame)
  | .waitShort samples | .dacWait samples => done (.wait samples.toUInt16)
  | .dataBlock =>
    byte.andThen fun _marker => byte.andThen fun kind => word32.andThen fun size => done (.block kind size)
  | .secondaryWrite _ => done (.skip 2)
  | .segaPcmWrite _ => done (.skip 3)
  | .foreignWrite _ operands => done (.skip operands)
  | .endOfData => done .endOfData
  | .unknown byte => done (.unknown byte)

end ByteParser

namespace Command

open ByteParser

/-- The number of bytes of a command that are passed over. -/
def passedOver : Command → UInt32
  | skip operands => operands.toUInt32
  | block _ size => size
  | _ => 0

/-- A command is its head and then the bytes that are passed over. -/
theorem decode?_eq_andThen (bytes : List UInt8) :
    decode? bytes = commandHead.andThen (fun c => (passBytes c.passedOver.toNat).andThen fun _ => done c) bytes := by
  cases bytes with
  | nil => rfl
  | cons opcode rest =>
    cases hop : Opcode.ofByte opcode
    case ym2151Write =>
      rcases rest with _ | ⟨a, _ | ⟨d, rest⟩⟩ <;>
        simp [decode?, hop, decodeAs?, decodeWrite?, commandHead, andThen, byte, done, passBytes, passedOver]
    case waitSamples =>
      rcases rest with _ | ⟨b₀, _ | ⟨b₁, rest⟩⟩ <;>
        simp [decode?, hop, decodeAs?, decodeWait?, commandHead, andThen, byte, word16, done, passBytes, passedOver]
    case dataBlock =>
      rcases rest with _ | ⟨m, _ | ⟨k, _ | ⟨b₀, _ | ⟨b₁, _ | ⟨b₂, _ | ⟨b₃, rest⟩⟩⟩⟩⟩⟩
      case cons.cons.cons.cons.cons.cons =>
        simp only [decode?, hop, decodeAs?, decodeBlock?, commandHead, andThen, byte, word32, done, passBytes,
          passedOver, List.drop_succ_cons, List.drop_zero, Option.map_some]
        split <;> simp
      all_goals simp [decode?, hop, decodeAs?, decodeBlock?, commandHead, andThen, byte, word32]
    case secondaryWrite | segaPcmWrite | foreignWrite =>
      simp only [decode?, hop, decodeAs?, decodeSkip?, commandHead, andThen, byte, done, passBytes,
        passedOver, List.drop_succ_cons, List.drop_zero, Option.map_some, UInt8.toNat_toUInt32]
      split <;> simp
    all_goals simp [decode?, hop, decodeAs?, commandHead, andThen, byte, done, passBytes, passedOver]

end Command

end VgmPlayback
