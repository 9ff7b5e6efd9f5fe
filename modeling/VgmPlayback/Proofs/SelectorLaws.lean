import Mathlib.Data.Set.Function
import Mathlib.Order.Interval.Finset.Nat
import VgmPlayback.Proofs.Selection

/-!
# Laws of selecting

The tracks may be others, and fewer, at every selection, so the stored place may lie beyond the last track.  It is then
taken for the last one (`Selector.place`), and whatever has been selected before, the next selection obeys the same
laws (`Selector.lawful_after`):

* it comes to the place of a track, or it is refused and leaves the selector as it was;
* going on and going back undo each other (`Selector.previous_of_next`), and going on often enough comes to every
  track once and back to the first (`Selector.nextTimes_length`);
* a random choice among several tracks is one of the others, each for one draw (`Selector.bijOn_otherPlace`), and the
  draws are fair: each of them is made with the same number of words (`RandomWords.card_wordsFor`).
-/

namespace VgmPlayback

/-! ### Fair draws -/

namespace RandomWords

variable {n k v : Nat}

/-- The words that are accepted for a number below `n` and stand for `k`. -/
def wordsFor (n k : Nat) : Finset Nat :=
  (Finset.range UInt64.size).filter fun v => v * n % UInt64.size ≤ zone n ∧ v * n / UInt64.size = k

/-- A number of less than sixty-four bits, shifted up to sixty-four bits. -/
private theorem zone_add_one (hn : 0 < n) : zone n + 1 = n * 2 ^ (63 - n.log2) := by
  have hpos : 0 < n * 2 ^ (63 - n.log2) := Nat.mul_pos hn (Nat.two_pow_pos _)
  rw [zone, Nat.shiftLeft_eq]
  omega

private theorem shifted_le (hn : 0 < n) (hsize : n < UInt64.size) : n * 2 ^ (63 - n.log2) ≤ UInt64.size := by
  have hlog : n < 2 ^ (n.log2 + 1) := Nat.lt_log2_self
  have hle : n.log2 < 64 := (Nat.log2_lt (Nat.ne_of_gt hn)).2 hsize
  calc n * 2 ^ (63 - n.log2) ≤ 2 ^ (n.log2 + 1) * 2 ^ (63 - n.log2) := Nat.mul_le_mul_right _ (Nat.le_of_lt hlog)
    _ = 2 ^ (n.log2 + 1 + (63 - n.log2)) := (Nat.pow_add ..).symm
    _ = UInt64.size := by rw [show n.log2 + 1 + (63 - n.log2) = 64 by omega]; rfl

/-- A word stands for `k` exactly if its product with `n` lies in the part of the `k`-th stretch that is accepted. -/
private theorem mem_wordsFor_iff (hn : 0 < n) (hsize : n < UInt64.size) (hk : k < n) :
    v ∈ wordsFor n k ↔ k * UInt64.size ≤ v * n ∧ v * n < k * UInt64.size + n * 2 ^ (63 - n.log2) := by
  have hzone := zone_add_one hn
  have hshifted := shifted_le hn hsize
  have hdiv := Nat.div_add_mod' (v * n) UInt64.size
  have hmod := Nat.mod_lt (v * n) (show UInt64.size > 0 by decide)
  rw [wordsFor, Finset.mem_filter, Finset.mem_range]
  constructor
  · rintro ⟨-, haccepted, rfl⟩
    omega
  · rintro ⟨hle, hlt⟩
    have hquot : v * n / UInt64.size = k := by
      rw [Nat.div_eq_iff (by decide)]
      omega
    have hbound : v * n < UInt64.size * n :=
      calc v * n < k * UInt64.size + UInt64.size := by omega
        _ = (k + 1) * UInt64.size := (Nat.succ_mul ..).symm
        _ ≤ n * UInt64.size := Nat.mul_le_mul_right _ hk
        _ = UInt64.size * n := Nat.mul_comm ..
    rw [hquot] at hdiv
    exact ⟨Nat.lt_of_mul_lt_mul_right hbound, by omega, hquot⟩

private theorem ceil_le_iff (hn : 0 < n) (m u : Nat) : (m + (n - 1)) / n ≤ u ↔ m ≤ u * n := by
  rw [Nat.div_le_iff_le_mul_add_pred hn, Nat.mul_comm u n]
  omega

/-- As many words stand for one number below `n` as for any other. -/
theorem card_wordsFor (hsize : n < UInt64.size) (hk : k < n) : (wordsFor n k).card = 2 ^ (63 - n.log2) := by
  have hn : 0 < n := Nat.zero_lt_of_lt hk
  have hset : wordsFor n k = Finset.Ico ((k * UInt64.size + (n - 1)) / n)
      ((k * UInt64.size + (n - 1)) / n + 2 ^ (63 - n.log2)) := by
    ext v
    rw [mem_wordsFor_iff hn hsize hk, Finset.mem_Ico, ceil_le_iff hn]
    refine and_congr_right fun _ => ?_
    rcases Nat.lt_or_ge v (2 ^ (63 - n.log2)) with hlt | hge
    · have hmul : v * n < n * 2 ^ (63 - n.log2) := by
        rw [Nat.mul_comm n]
        exact Nat.mul_lt_mul_of_pos_right hlt hn
      exact iff_of_true (by omega) (Nat.lt_of_lt_of_le hlt (Nat.le_add_left _ _))
    · -- the last word is as far from the first as the length of the stretch says
      obtain ⟨u, rfl⟩ := Nat.exists_eq_add_of_le hge
      have hceil := ceil_le_iff hn (k * UInt64.size) u
      rw [Nat.add_mul, Nat.mul_comm (2 ^ (63 - n.log2)) n]
      omega
  rw [hset, Nat.card_Ico, Nat.add_sub_cancel_left]

/-- A word that stands for a number makes it the draw, and a word that stands for none is passed over. -/
theorem draw_cons (n : Nat) (v : UInt64) (vs : RandomWords) :
    (∀ k, v.toNat ∈ wordsFor n k → draw n (v :: vs) = (k, vs)) ∧
    ((∀ k, v.toNat ∉ wordsFor n k) → draw n (v :: vs) = draw n vs) := by
  have hv : v.toNat < UInt64.size := v.toNat_lt
  simp only [wordsFor, Finset.mem_filter, Finset.mem_range]
  constructor
  · rintro k ⟨-, haccepted, rfl⟩
    rw [draw, if_pos haccepted]
  · intro hnone
    rw [draw, if_neg fun haccepted => hnone _ ⟨hv, haccepted, rfl⟩]

end RandomWords

namespace Selector

variable {names : List (Option String)} {s s' : Selector} {i j n : Nat}

/-- The current place, or the last one if the current one lies beyond it. -/
def place (s : Selector) (n : Nat) : Nat := min s.current (n - 1)

/-- The place that a draw stands for: those from the current one on stand for the one behind them. -/
def otherPlace (i j : Nat) : Nat := if i ≤ j then j + 1 else j

/-! ### Choices -/

theorem place_lt (s : Selector) (hn : n ≠ 0) : s.place n < n := by
  unfold place
  omega

theorem place_of_lt (h : s.current < n) : s.place n = s.current := by
  unfold place
  omega

theorem select_next_place (s : Selector) (hn : names.length ≠ 0) :
    select names .next s = .ok ((s.place names.length + 1) % names.length)
      { s with current := (s.place names.length + 1) % names.length } :=
  select_of_resolve_eq_ok hn rfl

theorem select_previous (s : Selector) (hn : names.length ≠ 0) :
    select names .previous s = .ok ((s.place names.length + names.length - 1) % names.length)
      { s with current := (s.place names.length + names.length - 1) % names.length } :=
  select_of_resolve_eq_ok hn rfl

private theorem previous_next_mod (hi : i < n) : ((i + 1) % n + n - 1) % n = i := by
  rcases Nat.lt_or_ge (i + 1) n with hlt | hge
  · have hsum : i + 1 + n - 1 = i + n := by omega
    rw [Nat.mod_eq_of_lt hlt, hsum, Nat.add_mod_right, Nat.mod_eq_of_lt hi]
  · have hlast : i + 1 = n := by omega
    rw [hlast, Nat.mod_self, Nat.zero_add, Nat.mod_eq_of_lt (by omega), ← hlast, Nat.add_sub_cancel]

private theorem next_previous_mod (hi : i < n) : ((i + n - 1) % n + 1) % n = i := by
  have hsum : i + n - 1 + 1 = i + n := by omega
  rw [Nat.mod_add_mod, hsum, Nat.add_mod_right, Nat.mod_eq_of_lt hi]

/-- Going on and back again comes to the place where one was, and so does going back and on. -/
theorem previous_of_next (h : s.current < names.length) :
    (∃ i s', select names .next s = .ok i s' ∧ select names .previous s' = .ok s.current s) ∧
    (∃ i s', select names .previous s = .ok i s' ∧ select names .next s' = .ok s.current s) := by
  have hn : names.length ≠ 0 := by omega
  have hplace := place_of_lt h
  refine ⟨⟨_, _, select_next_place s hn, ?_⟩, ⟨_, _, select_previous s hn, ?_⟩⟩
  · rw [select_previous _ hn, place_of_lt (Nat.mod_lt _ (Nat.pos_of_ne_zero hn)), hplace, previous_next_mod h]
  · rw [select_next_place _ hn, place_of_lt (Nat.mod_lt _ (Nat.pos_of_ne_zero hn)), hplace, next_previous_mod h]

/-! ### Going round -/

/-- So many selections of the next track in a row, and the places that they come to. -/
def nextTimes (names : List (Option String)) : Nat → EStateM PlaybackError Selector (List Nat)
  | 0 => pure []
  | k + 1 => do
    let i ← select names .next
    return i :: (← nextTimes names k)

private theorem nextTimes_of_lt (h : s.current < names.length) (k : Nat) :
    nextTimes names k s = .ok ((List.range k).map fun m => (s.current + 1 + m) % names.length)
      { s with current := (s.current + k) % names.length } := by
  induction k generalizing s with
  | zero =>
    have hstay : (s.current + 0) % names.length = s.current := Nat.mod_eq_of_lt h
    rw [hstay]
    rfl
  | succ k ih =>
    have hrest := ih (s := { s with current := (s.current + 1) % names.length })
      (Nat.mod_lt _ (Nat.zero_lt_of_lt h))
    simp only [nextTimes, Bind.bind, EStateM.bind, select_next h, hrest]
    simp only [List.range_succ_eq_map, List.map_cons, List.map_map, Nat.mod_add_mod, Nat.add_assoc,
      Nat.add_comm 1, Function.comp_def]
    rfl

theorem perm_range_map_add_mod (hi : i < n) : ((List.range n).map fun m => (i + 1 + m) % n).Perm (List.range n) := by
  have hsubset : List.range n ⊆ (List.range n).map fun m => (i + 1 + m) % n := by
    intro j hj
    rw [List.mem_range] at hj
    obtain ⟨m, hm, heq⟩ := exists_add_mod_eq (Nat.mod_lt (i + 1) (Nat.zero_lt_of_lt hi)) hj
    rw [Nat.mod_add_mod] at heq
    exact List.mem_map.2 ⟨m, List.mem_range.2 hm, heq⟩
  exact ((List.nodup_range.subperm hsubset).perm_of_length_le (by simp)).symm

/-- The first selection takes a place beyond the last track for the last one. -/
private theorem nextTimes_succ_place (s : Selector) (hn : names.length ≠ 0) (k : Nat) :
    nextTimes names (k + 1) s = nextTimes names (k + 1) { s with current := s.place names.length } := by
  have hplace : ({ s with current := s.place names.length } : Selector).place names.length = s.place names.length :=
    place_of_lt (place_lt s hn)
  simp only [nextTimes, Bind.bind, EStateM.bind, select_next_place _ hn, hplace]

/-- As many selections of the next track as there are tracks come to every track once, and back to the current one at
the end. -/
theorem nextTimes_length (s : Selector) (hn : names.length ≠ 0) :
    ∃ places, nextTimes names names.length s = .ok places { s with current := s.place names.length } ∧
      places.Perm (List.range names.length) := by
  have hlt := place_lt s hn
  have hround := nextTimes_of_lt (s := { s with current := s.place names.length }) hlt names.length
  have hback : (s.place names.length + names.length) % names.length = s.place names.length := by
    rw [Nat.add_mod_right, Nat.mod_eq_of_lt hlt]
  obtain ⟨k, hk⟩ := Nat.exists_eq_succ_of_ne_zero hn
  have hfirst := nextTimes_succ_place s hn k
  rw [← Nat.succ_eq_add_one, ← hk, hround] at hfirst
  rw [hback] at hfirst
  exact ⟨_, hfirst, perm_range_map_add_mod hlt⟩

/-! ### Choosing another place -/

theorem otherPlace_ne (i j : Nat) : otherPlace i j ≠ i := by
  unfold otherPlace
  split <;> omega

/-- The draws stand for the other places, each for one. -/
theorem bijOn_otherPlace (hi : i < n) : Set.BijOn (otherPlace i) {j | j < n - 1} {k | k < n ∧ k ≠ i} := by
  refine ⟨fun j hj => ?_, fun j hj j' hj' heq => ?_, fun k hk => ?_⟩
  · have hj : j < n - 1 := hj
    refine ⟨?_, otherPlace_ne i j⟩
    unfold otherPlace
    split <;> omega
  · unfold otherPlace at heq
    split at heq <;> split at heq <;> omega
  · obtain ⟨hk, hne⟩ : k < n ∧ k ≠ i := hk
    rcases Nat.lt_or_gt_of_ne hne with hlt | hgt
    · refine ⟨k, show k < n - 1 by omega, if_neg (by omega)⟩
    · refine ⟨k - 1, show k - 1 < n - 1 by omega, ?_⟩
      rw [otherPlace, if_pos (by omega)]
      omega

theorem select_random (s : Selector) (hn : 2 ≤ names.length) :
    select names .random s = .ok (otherPlace (s.place names.length) (RandomWords.draw (names.length - 1) s.words).1)
      { current := otherPlace (s.place names.length) (RandomWords.draw (names.length - 1) s.words).1
        words := (RandomWords.draw (names.length - 1) s.words).2 } :=
  select_of_resolve_eq_ok (by omega) (if_neg (by omega))

/-! ### The laws -/

/-- The laws of one more selection, from tracks of these names. -/
structure Lawful (names : List (Option String)) (s : Selector) : Prop where
  /-- There is nothing to choose from, or no track of the requested name, and the selector stays as it is; or the place
  of a track is chosen, and is then the current one. -/
  outcome : ∀ choice, (names = [] ∧ select names choice s = .error .noTracks s) ∨
    (∃ request, choice = .request request ∧ Library.positionIn? names request = none ∧
      select names choice s = .error (.notFound (Text.trim request)) s) ∨
    ∃ index words, index < names.length ∧ select names choice s = .ok index { current := index, words }
  /-- Going on and going back undo each other, unless the stored place lies beyond the last track. -/
  undone : s.current < names.length →
    (∃ i s', select names .next s = .ok i s' ∧ select names .previous s' = .ok s.current s) ∧
    ∃ i s', select names .previous s = .ok i s' ∧ select names .next s' = .ok s.current s
  /-- Going on as often as there are tracks comes to each of them once, and back. -/
  round : names ≠ [] → ∃ places,
    nextTimes names names.length s = .ok places { s with current := s.place names.length } ∧
    places.Perm (List.range names.length)
  /-- A random choice among several tracks is another one than the current one, by one draw. -/
  random : 2 ≤ names.length → ∃ j words, RandomWords.draw (names.length - 1) s.words = (j, words) ∧
    j < names.length - 1 ∧ otherPlace (s.place names.length) j ≠ s.place names.length ∧
    select names .random s = .ok (otherPlace (s.place names.length) j)
      { current := otherPlace (s.place names.length) j, words }
  /-- There is one draw for every other place. -/
  draws : names ≠ [] → Set.BijOn (otherPlace (s.place names.length)) {j | j < names.length - 1}
    {k | k < names.length ∧ k ≠ s.place names.length}
  /-- As many words stand for one draw as for any other. -/
  fair : names.length ≤ UInt64.size → ∀ j < names.length - 1,
    (RandomWords.wordsFor (names.length - 1) j).card = 2 ^ (63 - (names.length - 1).log2)
  /-- A word that stands for a draw makes it, and a word that stands for none is passed over. -/
  drawn : ∀ (v : UInt64) (vs : RandomWords),
    (∀ j, v.toNat ∈ RandomWords.wordsFor (names.length - 1) j →
      RandomWords.draw (names.length - 1) (v :: vs) = (j, vs)) ∧
    ((∀ j, v.toNat ∉ RandomWords.wordsFor (names.length - 1) j) →
      RandomWords.draw (names.length - 1) (v :: vs) = RandomWords.draw (names.length - 1) vs)
  /-- The largest number on the way is a word. -/
  fits : names.length < 2 ^ 63 → s.place names.length + names.length < UInt64.size

theorem lawful (names : List (Option String)) (s : Selector) : Lawful names s where
  outcome choice := select_cases names choice s
  undone h := previous_of_next h
  round hnames := nextTimes_length s (mt List.length_eq_zero_iff.1 hnames)
  random hn := ⟨_, _, rfl, RandomWords.draw_lt (by omega) s.words, otherPlace_ne _ _, select_random s hn⟩
  draws hnames := bijOn_otherPlace (place_lt s (mt List.length_eq_zero_iff.1 hnames))
  fair hsize j hj := RandomWords.card_wordsFor (by omega) hj
  drawn := RandomWords.draw_cons (names.length - 1)
  fits hsize := by
    rw [place, UInt64.size]
    omega

/-- A choice, and the names of the tracks that there are to choose from. -/
structure Selection where
  names : List (Option String)
  choice : Choice

/-- There is a track for the choice. -/
def Selection.isMet (e : Selection) : Bool :=
  match e.choice with
  | .request name => (Library.positionIn? e.names name).isSome
  | _ => !e.names.isEmpty

/-- The selector after a row of selections, whether or not they succeed. -/
def after (s : Selector) : List Selection → Selector
  | [] => s
  | e :: rest =>
    match select e.names e.choice s with
    | .ok _ s => s.after rest
    | .error _ s => s.after rest

theorem select_of_not_isMet {e : Selection} (h : e.isMet = false) (s : Selector) :
    ∃ err, select e.names e.choice s = .error err s := by
  unfold Selection.isMet at h
  rcases select_cases e.names e.choice s with ⟨-, hselect⟩ | ⟨_, _, _, hselect⟩ | ⟨_, _, hlt, _⟩
  · exact ⟨_, hselect⟩
  · exact ⟨_, hselect⟩
  · have hnames : e.names ≠ [] := List.ne_nil_of_length_pos (Nat.zero_lt_of_lt hlt)
    split at h
    · rename_i name hchoice
      have hnone : Library.positionIn? e.names name = none := by simpa using h
      rw [hchoice]
      exact ⟨_, select_request_of_none s hnames hnone⟩
    · rw [Bool.not_eq_false', List.isEmpty_iff] at h
      exact absurd h hnames

/-- Selections that are refused leave no trace in a row of them. -/
theorem after_filter_isMet (s : Selector) (selections : List Selection) :
    s.after (selections.filter Selection.isMet) = s.after selections := by
  induction selections generalizing s with
  | nil => rfl
  | cons e rest ih =>
    cases hmet : e.isMet with
    | false =>
      obtain ⟨err, hselect⟩ := select_of_not_isMet hmet s
      rw [List.filter_cons_of_neg (by rw [hmet]; exact Bool.false_ne_true), ih, after, hselect]
    | true =>
      rw [List.filter_cons_of_pos hmet, after, after]
      cases select e.names e.choice s <;> exact ih _

/-- Whatever has been selected before, from whatever tracks and with whatever success: the next selection is lawful, and
those that were refused might as well not have been made. -/
theorem lawful_after (s : Selector) (selections : List Selection) (names : List (Option String)) :
    Lawful names (s.after selections) ∧ s.after (selections.filter Selection.isMet) = s.after selections :=
  ⟨lawful names (s.after selections), after_filter_isMet s selections⟩

end Selector

end VgmPlayback
