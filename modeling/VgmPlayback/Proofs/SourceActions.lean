import VgmPlayback.Format.Gd3

/-!
# What actions on sources inherit

A property of moving a source and of taking bytes from it that passes to what is done one after the other
(`Source.Inherited`) is a property of reading a metadata chunk, wherever it ends (`Source.Inherited.readAt`).
-/

namespace VgmPlayback.Source

structure Inherited (P : ∀ {α : Type}, EStateM IoError Source α → Prop) : Prop where
  pure : ∀ {α : Type} (a : α), P (pure a)
  seek : ∀ pos, P (seek pos)
  take : ∀ n, P (take n)
  bind : ∀ {α β : Type} {act : EStateM IoError Source α} {next : α → EStateM IoError Source β},
    P act → (∀ a, P (next a)) → P (act >>= next)

namespace Inherited

variable {P : ∀ {α : Type}, EStateM IoError Source α → Prop}

private theorem fill (h : Inherited P) (n : Nat) (t : Gd3.TextTable) : P (t.fill n) := by
  induction n generalizing t with
  | zero => exact h.pure _
  | succ n ih =>
    refine h.bind (h.take 2) fun bytes => ?_
    split
    · exact ih _
    · exact h.pure _

private theorem takeWord? (h : Inherited P) : P Gd3.takeWord? := h.bind (h.take 4) fun _ => h.pure _

theorem readAt (h : Inherited P) (pos : Nat) : P (Gd3.readAt pos) := by
  refine h.bind (h.seek pos) fun _ => h.bind (h.take 4) fun head => ?_
  dsimp only
  split
  · exact h.pure _
  · refine h.bind h.takeWord? fun version? => ?_
    cases version? with
    | none => exact h.pure _
    | some version =>
      refine h.bind h.takeWord? fun length? => ?_
      cases length? with
      | none => exact h.pure _
      | some length => exact h.bind (h.fill _ _) fun _ => h.pure _

end Inherited

end VgmPlayback.Source
