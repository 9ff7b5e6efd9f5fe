import VgmPlayback.Playlist.Selector

/-!
# Selecting

What a selection can come to (`Selector.select_cases`): it is refused if there are no tracks or if no track has the
requested name, and then the selector stays as it was; otherwise the chosen place is one of a track and becomes the
current one.  Going to the next place over and over comes to every place (`exists_add_mod_eq`).
-/

namespace VgmPlayback

theorem Library.positionIn?_eq_none_iff {names : List (Option String)} {request : String} :
    positionIn? names request = none ↔ ∀ name, some name ∈ names → Text.trim name ≠ Text.trim request := by
  rw [positionIn?, List.findIdx?_eq_none_iff]
  constructor
  · intro h name hmem heq
    have hany := h (some name) hmem
    simp [heq] at hany
  · intro h name? hmem
    cases name? with
    | none => rfl
    | some name => simpa using h name hmem

namespace Selector

private theorem resolve_cases (names : List (Option String)) {i : Nat} (hi : i < names.length) (words : RandomWords)
    (choice : Choice) :
    (∃ name, choice = .request name ∧ Library.positionIn? names name = none ∧
      resolve names names.length i words choice = .error (.notFound (Text.trim name))) ∨
    ∃ index words', index < names.length ∧ resolve names names.length i words choice = .ok (index, words') := by
  have hpos : 0 < names.length := Nat.zero_lt_of_lt hi
  cases choice with
  | first => exact .inr ⟨0, words, hpos, rfl⟩
  | next => exact .inr ⟨_, words, Nat.mod_lt _ hpos, rfl⟩
  | previous => exact .inr ⟨_, words, Nat.mod_lt _ hpos, rfl⟩
  | random =>
    right
    by_cases hone : names.length = 1
    · exact ⟨i, words, hi, by rw [resolve, if_pos hone]⟩
    · have hdraw := RandomWords.draw_lt (show 0 < names.length - 1 by omega) words
      generalize hwords : RandomWords.draw (names.length - 1) words = drawn at hdraw
      obtain ⟨j, words'⟩ := drawn
      have hj : j < names.length - 1 := hdraw
      refine ⟨if i ≤ j then j + 1 else j, words', ?_, by rw [resolve, if_neg hone, hwords]⟩
      -- the numbers from the current place on stand for the place behind them
      split <;> omega
  | request name =>
    cases hposition : Library.positionIn? names name with
    | none => exact .inl ⟨name, rfl, hposition, by rw [resolve, hposition]⟩
    | some j =>
      have hj : j < names.length := (List.findIdx?_eq_some_iff_findIdx_eq.1 hposition).1
      exact .inr ⟨j, words, hj, by rw [resolve, hposition]⟩

/-- Where there are tracks, a selection comes to what the choice means at the current place, which is the last one if it
lies beyond it. -/
theorem select_of_resolve_eq_ok {names : List (Option String)} {choice : Choice} {s : Selector} {index : Nat}
    {words : RandomWords} (hnames : names.length ≠ 0)
    (h : resolve names names.length (min s.current (names.length - 1)) s.words choice = .ok (index, words)) :
    select names choice s = .ok index { current := index, words } := by
  unfold select
  dsimp only
  rw [if_neg hnames, h]

theorem select_of_resolve_eq_error {names : List (Option String)} {choice : Choice} {s : Selector} {e : PlaybackError}
    (hnames : names.length ≠ 0)
    (h : resolve names names.length (min s.current (names.length - 1)) s.words choice = .error e) :
    select names choice s = .error e s := by
  unfold select
  dsimp only
  rw [if_neg hnames, h]

theorem select_cases (names : List (Option String)) (choice : Choice) (s : Selector) :
    (names = [] ∧ select names choice s = .error .noTracks s) ∨
    (∃ name, choice = .request name ∧ Library.positionIn? names name = none ∧
      select names choice s = .error (.notFound (Text.trim name)) s) ∨
    ∃ index words, index < names.length ∧ select names choice s = .ok index { current := index, words } := by
  by_cases hempty : names.length = 0
  · left
    exact ⟨List.length_eq_zero_iff.1 hempty, by rw [select, if_pos hempty]⟩
  · right
    have hi : min s.current (names.length - 1) < names.length := by omega
    rcases resolve_cases names hi s.words choice with ⟨name, hchoice, hnone, hresolve⟩ | ⟨index, words, hlt, hresolve⟩
    · exact .inl ⟨name, hchoice, hnone, select_of_resolve_eq_error hempty hresolve⟩
    · exact .inr ⟨index, words, hlt, select_of_resolve_eq_ok hempty hresolve⟩

/-- A request for a name that no track has is refused. -/
theorem select_request_of_none {names : List (Option String)} {request : String} (s : Selector) (hnames : names ≠ [])
    (hnone : Library.positionIn? names request = none) :
    select names (.request request) s = .error (.notFound (Text.trim request)) s :=
  select_of_resolve_eq_error (mt List.length_eq_zero_iff.1 hnames) (by rw [resolve, hnone])

theorem select_next {names : List (Option String)} {s : Selector} (h : s.current < names.length) :
    select names .next s =
      .ok ((s.current + 1) % names.length) { s with current := (s.current + 1) % names.length } := by
  have hcurrent : min s.current (names.length - 1) = s.current := by omega
  exact select_of_resolve_eq_ok (by omega) (by rw [hcurrent, resolve])

end Selector

/-- Of `n` places, `n` steps in a row come to each. -/
theorem exists_add_mod_eq {n i j : Nat} (hi : i < n) (hj : j < n) : ∃ k < n, (i + k) % n = j := by
  rcases Nat.le_total i j with hle | hle
  · refine ⟨j - i, by omega, ?_⟩
    rw [Nat.add_sub_cancel' hle, Nat.mod_eq_of_lt hj]
  · refine ⟨(n - i + j) % n, Nat.mod_lt _ (by omega), ?_⟩
    have hsum : i + (n - i + j) = n + j := by omega
    rw [Nat.add_mod_mod, hsum, Nat.add_mod_left, Nat.mod_eq_of_lt hj]

end VgmPlayback
