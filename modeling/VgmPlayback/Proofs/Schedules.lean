import VgmPlayback.Proofs.Tour

/-!
# Independence of the schedule

Polls and ticks in any order take a player some way along the tour of its library
(`Player.Follows.exists_after`).  The tour depends neither on the capacities nor on the schedule, so of two players
over the same tracks one has sent and loaded what the other has, and perhaps more (`Player.prefix_of_runs`).
-/

namespace VgmPlayback.Player

variable {p : Player} {s : Tour}

theorem Follows.exists_after (h : p.Follows s) {ops : List Operation} (hops : ∀ op ∈ ops, op = .poll ∨ op = .tick) :
    ∃ n, (p.run ops).Follows (s.after n) := by
  induction ops generalizing p s with
  | nil => exact ⟨0, h⟩
  | cons op ops ih =>
    have hrest : ∀ op ∈ ops, op = .poll ∨ op = .tick := fun op hmem => hops op (List.mem_cons_of_mem _ hmem)
    rcases hops op (List.mem_cons_self ..) with rfl | rfl
    · rcases h.poll with hstays | hadvances
      · exact ih hstays hrest
      · obtain ⟨n, hn⟩ := ih hadvances hrest
        exact ⟨n + 1, hn⟩
    · -- a tick touches nothing but the clock
      exact ih (p := { p with clock := p.clock.tick }) ⟨{ h with }, h.trackAt⟩ hrest

/-- Two players over the same tracks in memory, with the same play mode, the same number of loops and the same
random words: whatever their capacities, and however they are polled and ticked, what one has sent to the chip and
which tracks it has loaded is the beginning of what the other has. -/
theorem prefix_of_runs {entries : List (String × List UInt8)} {config config' : PlayerConfig} {words : RandomWords}
    {p p' : Player} (h : start (.ofMemory entries) config words = .ok () p)
    (h' : start (.ofMemory entries) config' words = .ok () p') (hmode : config.mode = config'.mode)
    (hloops : config.maxLoops = config'.maxLoops) {ops ops' : List Operation}
    (hops : ∀ op ∈ ops, op = .poll ∨ op = .tick) (hops' : ∀ op ∈ ops', op = .poll ∨ op = .tick) :
    ((p.run ops).chip.toList <+: (p'.run ops').chip.toList ∧ (p.run ops).loaded <+: (p'.run ops').loaded) ∨
    ((p'.run ops').chip.toList <+: (p.run ops).chip.toList ∧ (p'.run ops').loaded <+: (p.run ops).loaded) := by
  have hstart := follows_of_start h'
  rw [← hmode, ← hloops] at hstart
  obtain ⟨n, hn⟩ := (follows_of_start h).exists_after hops
  obtain ⟨m, hm⟩ := hstart.exists_after hops'
  rw [hn.chip_eq, hn.loaded_eq, hm.chip_eq, hm.loaded_eq]
  rcases Nat.le_total n m with hle | hle
  · have hextends := Tour.extends_after_of_le hle (.start entries config.mode config.maxLoops words)
    exact .inl ⟨hextends.chip, hextends.loaded⟩
  · have hextends := Tour.extends_after_of_le hle (.start entries config.mode config.maxLoops words)
    exact .inr ⟨hextends.chip, hextends.loaded⟩

/-- A track that writes, waits and goes round, one that is no track, and one that breaks off in its wait. -/
private def threeTracks : List (String × List UInt8) :=
  [("round", [0x56, 0x67, 0x6D, 0x20] ++ List.replicate 0x3C 0 ++ [0x54, 0x08, 0x78, 0x71, 0x66]),
    ("none", [0x00]),
    ("broken", [0x56, 0x67, 0x6D, 0x20] ++ List.replicate 0x3C 0 ++ [0x54, 0x20, 0xC0, 0x7F])]

private def narrow : PlayerConfig where
  bufferCapacity := 1
  loopHeadLength := 0
  maxLoops := 1
  mode := .inOrder

private def wide : PlayerConfig where
  bufferCapacity := 64
  loopHeadLength := 8
  maxLoops := 1
  mode := .inOrder

theorem prefix_of_runs_threeTracks : ∃ p p',
    start (.ofMemory threeTracks) narrow [] = .ok () p ∧ start (.ofMemory threeTracks) wide [] = .ok () p' ∧
    (p.run [.poll, .tick, .poll, .tick]).loaded = [0] ∧
    (p'.run [.poll, .poll, .poll, .tick, .tick, .poll, .poll, .poll, .poll]).loaded = [0, 2, 0] ∧
    (p.run [.poll, .tick, .poll, .tick]).chip.toList <+:
      (p'.run [.poll, .poll, .poll, .tick, .tick, .poll, .poll, .poll, .poll]).chip.toList := by
  have hstart : start (.ofMemory threeTracks) narrow [] = .ok () (leftBy (start (.ofMemory threeTracks) narrow [])) :=
    eq_ok_of_succeeds (by decide +kernel)
  have hstart' : start (.ofMemory threeTracks) wide [] = .ok () (leftBy (start (.ofMemory threeTracks) wide [])) :=
    eq_ok_of_succeeds (by decide +kernel)
  have hloaded : ((leftBy (start (.ofMemory threeTracks) narrow [])).run [.poll, .tick, .poll, .tick]).loaded = [0] := by
    decide +kernel
  have hloaded' : ((leftBy (start (.ofMemory threeTracks) wide [])).run
      [.poll, .poll, .poll, .tick, .tick, .poll, .poll, .poll, .poll]).loaded = [0, 2, 0] := by
    decide +kernel
  have hops : ∀ op ∈ [Operation.poll, .tick, .poll, .tick], op = .poll ∨ op = .tick := by decide
  have hops' : ∀ op ∈ [Operation.poll, .poll, .poll, .tick, .tick, .poll, .poll, .poll, .poll],
      op = .poll ∨ op = .tick := by
    decide
  refine ⟨_, _, hstart, hstart', hloaded, hloaded', ?_⟩
  rcases prefix_of_runs hstart hstart' rfl rfl hops hops' with ⟨hchip, -⟩ | ⟨-, hlonger⟩
  · exact hchip
  · -- the second player has loaded more tracks than the first
    rw [hloaded, hloaded'] at hlonger
    exact absurd hlonger.length_le (by decide)

end VgmPlayback.Player
