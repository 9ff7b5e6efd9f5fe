/-!
# Random choice

`RandomWords` is a random source: a supply of sixty-four-bit words, with zeros once it is used up.  `draw n`
picks a number below `n` from it.  A word `v` stands for the number `v * n / 2^64`, but it is passed over
when the low half of `v * n` lies above a bound that leaves every number the same share of words.
-/

namespace VgmPlayback

abbrev RandomWords := List UInt64

namespace RandomWords

/-- The largest low half with which a word is accepted: `n` shifted up to sixty-four bits, less one. -/
def zone (n : Nat) : Nat := n <<< (63 - n.log2) - 1

/-- A number below `n`, for `0 < n`, and the words left. -/
def draw (n : Nat) : RandomWords → Nat × RandomWords
  | [] => (0, [])
  | v :: vs =>
    if v.toNat * n % UInt64.size ≤ zone n then (v.toNat * n / UInt64.size, vs) else draw n vs

theorem draw_lt {n : Nat} (hn : 0 < n) (vs : RandomWords) : (draw n vs).1 < n := by
  induction vs with
  | nil => exact hn
  | cons v vs ih =>
    unfold draw
    split
    · have hv := v.toNat_lt
      show v.toNat * n / UInt64.size < n
      rw [Nat.div_lt_iff_lt_mul (by decide), Nat.mul_comm n]
      exact Nat.mul_lt_mul_of_pos_right hv hn
    · exact ih

end RandomWords

end VgmPlayback
