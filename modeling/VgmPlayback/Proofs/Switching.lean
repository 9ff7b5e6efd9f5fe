import Mathlib.Data.List.Induction
import Mathlib.Data.List.Nodup
import Mathlib.Data.Nat.ModEq
import VgmPlayback.Proofs.PlayerRuns
import VgmPlayback.Proofs.Selection

/-!
# Switching tracks

A switch starts at the place that the selector resolves the choice to, and goes round the library from there until a
track can be loaded.  It lands on the first one that can (`Player.selectTrack_lands`): the tracks on the way to it,
and it itself, are opened once each and in this order, no other track is, and nothing of those on the way goes to the
chip.  If it comes all the way round, it gives up, with the selector back at the place where it started.

What a track gives does not depend on the tracks that are opened before it (`Library.openTrack_openAll`), so the
tracks that can be loaded are known before the switch (`Player.loadable?`).
-/

namespace VgmPlayback

namespace Library

variable {l l' : Library} {index i : Nat} {indices : List Nat}

/-- The number of times that the track at `index` was opened. -/
def openings (l : Library) (index : Nat) : Nat := l.tracks[index]?.elim 0 Track.openings

/-- The library after its tracks at these places were opened, one after the other. -/
def openAll (l : Library) (indices : List Nat) : Library := indices.foldl (fun l i => (l.openTrack i).2) l

theorem openAll_concat (l : Library) (indices : List Nat) (i : Nat) :
    l.openAll (indices ++ [i]) = ((l.openAll indices).openTrack i).2 := by
  rw [openAll, List.foldl_append]
  rfl

theorem getElem?_openTrack_of_ne (h : index ≠ i) : (l.openTrack index).2.tracks[i]? = l.tracks[i]? := by
  unfold openTrack
  split
  · rfl
  · exact Array.getElem?_setIfInBounds_ne h

theorem getElem?_openAll (h : i ∉ indices) : (l.openAll indices).tracks[i]? = l.tracks[i]? := by
  induction indices using List.reverseRecOn with
  | nil => rfl
  | append_singleton indices j ih =>
    simp only [List.mem_append, List.mem_singleton, not_or] at h
    rw [openAll_concat, getElem?_openTrack_of_ne (Ne.symm h.2)]
    exact ih h.1

/-- A track gives what it would have given before the others were opened. -/
theorem openTrack_openAll (h : i ∉ indices) : ((l.openAll indices).openTrack i).1 = (l.openTrack i).1 := by
  unfold openTrack
  rw [getElem?_openAll h]
  cases l.tracks[i]? <;> rfl

theorem size_openTrack (l : Library) (i : Nat) : (l.openTrack i).2.size = l.size := by
  rw [← length_names, names_openTrack, length_names]

theorem size_openAll (l : Library) (indices : List Nat) : (l.openAll indices).size = l.size := by
  induction indices using List.reverseRecOn with
  | nil => rfl
  | append_singleton indices j ih => rw [openAll_concat, size_openTrack, ih]

theorem openings_openTrack (h : i < l.size) : (l.openTrack i).2.openings i = l.openings i + 1 := by
  have htrack : l.tracks[i]? = some l.tracks[i] := Array.getElem?_eq_getElem h
  have hset : ∀ t : Track, (l.tracks.setIfInBounds i t)[i]? = some t := by
    intro t
    exact Array.getElem?_setIfInBounds_self_of_lt h
  simp only [openTrack, openings, htrack, hset]
  rfl

/-- `l'` is `l` after the tracks at these places were opened in this order: each of them once, and no other. -/
structure Opened (indices : List Nat) (l l' : Library) : Prop where
  library_eq : l' = l.openAll indices
  once : ∀ i ∈ indices, l'.openings i = l.openings i + 1
  others : ∀ i, i ∉ indices → l'.openings i = l.openings i

theorem opened_openAll (hnodup : indices.Nodup) (hlt : ∀ i ∈ indices, i < l.size) :
    Opened indices l (l.openAll indices) := by
  refine ⟨rfl, ?_, ?_⟩
  · intro i hi
    -- the one opening of this track splits the others into those before and those after it
    obtain ⟨before, after, rfl⟩ := List.append_of_mem hi
    have hbefore : i ∉ before := by
      intro hmem
      exact (List.nodup_append.1 hnodup).2.2 i hmem i (List.mem_cons_self ..) rfl
    have hafter : i ∉ after := (List.nodup_cons.1 (List.nodup_append.1 hnodup).2.1).1
    have hsplit : l.openAll (before ++ i :: after) = ((l.openAll before).openTrack i).2.openAll after := by
      rw [openAll, List.foldl_append]
      rfl
    have hsize : i < (l.openAll before).size := by
      rw [size_openAll]
      exact hlt i hi
    calc (l.openAll (before ++ i :: after)).openings i
        = ((l.openAll before).openTrack i).2.openings i := by
          rw [hsplit, openings, getElem?_openAll hafter, openings]
      _ = (l.openAll before).openings i + 1 := openings_openTrack hsize
      _ = l.openings i + 1 := by rw [openings, getElem?_openAll hbefore, openings]
  · intro i hi
    rw [openings, getElem?_openAll hi, openings]

end Library

/-! ### Places round the library -/

/-- `k` places of `n`, from `s` on and round. -/
def placesFrom (n s k : Nat) : List Nat := (List.range k).map fun j => (s + j) % n

private theorem placesFrom_succ (n s k : Nat) : placesFrom n s (k + 1) = placesFrom n s k ++ [(s + k) % n] := by
  rw [placesFrom, List.range_succ, List.map_append]
  rfl

private theorem add_mod_inj {n s i j : Nat} (hi : i < n) (hj : j < n) (h : (s + i) % n = (s + j) % n) : i = j := by
  have hmod : i % n = j % n := Nat.ModEq.add_left_cancel' s h
  rwa [Nat.mod_eq_of_lt hi, Nat.mod_eq_of_lt hj] at hmod

private theorem notMem_placesFrom {n s k : Nat} (hk : k < n) : (s + k) % n ∉ placesFrom n s k := by
  intro hmem
  obtain ⟨j, hj, heq⟩ := List.mem_map.1 hmem
  rw [List.mem_range] at hj
  have := add_mod_inj (by omega) hk heq
  omega

private theorem nodup_placesFrom {n s k : Nat} (hk : k ≤ n) : (placesFrom n s k).Nodup := by
  refine List.Nodup.map_on ?_ List.nodup_range
  intro i hi j hj heq
  rw [List.mem_range] at hi hj
  exact add_mod_inj (by omega) (by omega) heq

private theorem lt_of_mem_placesFrom {n s k i : Nat} (hn : 0 < n) (hi : i ∈ placesFrom n s k) : i < n := by
  obtain ⟨j, -, rfl⟩ := List.mem_map.1 hi
  exact Nat.mod_lt _ hn

namespace Player

variable {p p' : Player} {index s k : Nat} {t : Playthrough}

/-! ### What a track gives -/

/-- The track that loading the place `index` gives, if nothing fails on the way to it: not the opening, not the start
of the track, not the check of its identifier, and not the reading of its metadata. -/
def loadable? (p : Player) (index : Nat) : Option Playthrough :=
  match (p.library.openTrack index).1 with
  | .error _ => none
  | .ok source => (prepare p.config source {}).1.toOption

/-- The clock is informed of a track, but has no part in it. -/
private theorem prepare_result (config : PlayerConfig) (source : Source) (clock : SampleClock) :
    (prepare config source clock).1 = (prepare config source {}).1 := by
  unfold prepare
  cases Playthrough.start source config.bufferCapacity config.loopHeadLength with
  | error e => rfl
  | ok t =>
    dsimp only
    split
    · rfl
    · rcases t.loadMetadata with ⟨e | gd3, t', notices⟩ <;> rfl

/-- Nothing has been counted and no unknown opcode noted. -/
structure Unplayed (t : Playthrough) : Prop where
  loopCount_eq : t.loopCount = 0
  lastUnknown?_eq : t.lastUnknown? = none

private theorem unplayed_of_start {source : Source} {capacity headCapacity : Nat}
    (h : Playthrough.start source capacity headCapacity = .ok t) : Unplayed t := by
  unfold Playthrough.start at h
  split at h
  · cases h
  · split at h
    · cases h
    · split at h
      · cases h
      · split at h
        · cases h
        · cases h
          exact ⟨rfl, rfl⟩

private theorem unplayed_of_prepare {config : PlayerConfig} {source : Source} {clock : SampleClock}
    (h : (prepare config source clock).1 = .ok t) : Unplayed t := by
  unfold prepare at h
  cases hstart : Playthrough.start source config.bufferCapacity config.loopHeadLength with
  | error e =>
    rw [hstart] at h
    cases h
  | ok started =>
    have hstarted := unplayed_of_start hstart
    rw [hstart] at h
    dsimp only at h
    split at h
    · cases h
    · have hload : Unplayed started.loadMetadata.2.1 := by
        unfold Playthrough.loadMetadata
        dsimp only
        split <;> exact ⟨hstarted.loopCount_eq, hstarted.lastUnknown?_eq⟩
      rcases hmetadata : started.loadMetadata with ⟨e | gd3, loaded, notices⟩
      · rw [hmetadata] at h
        cases h
      · rw [hmetadata] at h hload
        cases h
        exact hload

theorem load_of_loadable?_eq_some (h : p.loadable? index = some t) :
    Unplayed t ∧ ∃ (clock : SampleClock) (notices : Array Notice), clock.wait = 0 ∧ load index p = .ok () { p with
      library := (p.library.openTrack index).2
      track? := some t
      clock := { clock with ready := true }
      chip := p.chip ++ #[.clock (t.header.get .ym2151Clock), .reset]
      notices } := by
  unfold loadable? at h
  unfold load
  dsimp only
  rcases hopen : p.library.openTrack index with ⟨e | source, library⟩
  · rw [hopen] at h
    cases h
  · rw [hopen] at h
    dsimp only at h ⊢
    have hresult := prepare_result p.config source { p.clock with wait := 0 }
    obtain ⟨hwait, -⟩ := prepare_cases p.config source { p.clock with wait := 0 }
    rw [← hresult] at h
    rcases hprepare : prepare p.config source { p.clock with wait := 0 } with ⟨e | t', clock, notices⟩
    · rw [hprepare] at h
      cases h
    · rw [hprepare] at h hwait
      cases h
      exact ⟨unplayed_of_prepare (congrArg Prod.fst hprepare), clock, _, hwait, rfl⟩

theorem load_of_loadable?_eq_none (h : p.loadable? index = none) :
    ∃ e, ∃ (clock : SampleClock) (notices : Array Notice), clock.wait = 0 ∧ clock.ready = p.clock.ready ∧
      load index p = .error e { p with
      library := (p.library.openTrack index).2
      track? := none
      clock
      notices } := by
  unfold loadable? at h
  unfold load
  dsimp only
  rcases hopen : p.library.openTrack index with ⟨e | source, library⟩
  · exact ⟨_, { p.clock with wait := 0 }, _, rfl, rfl, rfl⟩
  · rw [hopen] at h
    dsimp only at h ⊢
    have hresult := prepare_result p.config source { p.clock with wait := 0 }
    obtain ⟨hwait, hready, -⟩ := prepare_cases p.config source { p.clock with wait := 0 }
    rw [← hresult] at h
    rcases hprepare : prepare p.config source { p.clock with wait := 0 } with ⟨e | t', clock, notices⟩
    · rw [hprepare] at hwait hready
      exact ⟨_, clock, _, hwait, hready, rfl⟩
    · rw [hprepare] at h
      cases h

/-! ### Attempts -/

/-- `p'` is `p` after `k` attempts from the place `s` on, all of which failed. -/
private structure Passed (s k : Nat) (p p' : Player) : Prop where
  library_eq : p'.library = p.library.openAll (placesFrom p.library.size s k)
  selector_eq : p'.selector = { p.selector with current := (s + k) % p.library.size }
  config_eq : p'.config = p.config
  chip_eq : p'.chip = p.chip
  ready_eq : p'.clock.ready = p.clock.ready
  gone : 0 < k → p'.track? = none ∧ p'.clock.wait = 0

private theorem Passed.size_eq (h : Passed s k p p') : p'.library.size = p.library.size := by
  rw [h.library_eq, Library.size_openAll]

/-- The next place gives what it would have given before the attempts. -/
private theorem Passed.loadable?_eq (h : Passed s k p p') (hk : k < p.library.size) :
    p'.loadable? ((s + k) % p.library.size) = p.loadable? ((s + k) % p.library.size) := by
  unfold loadable?
  rw [h.library_eq, h.config_eq, Library.openTrack_openAll (notMem_placesFrom hk)]

private theorem Passed.succ {clock : SampleClock} (h : Passed s k p p') (hwait : clock.wait = 0)
    (hready : clock.ready = p'.clock.ready) (notices : Array Notice) :
    Passed s (k + 1) p { p' with
      library := (p'.library.openTrack ((s + k) % p.library.size)).2
      selector := { p.selector with current := (s + (k + 1)) % p.library.size }
      track? := none
      clock
      notices } where
  library_eq := by
    rw [placesFrom_succ, Library.openAll_concat, ← h.library_eq]
  selector_eq := rfl
  config_eq := h.config_eq
  chip_eq := h.chip_eq
  ready_eq := hready.trans h.ready_eq
  gone := fun _ => ⟨rfl, hwait⟩

/-- Attempts that fail are passed over, and the next one is made at the next place. -/
private theorem loadPlayable_passes (hcurrent : p.selector.current = s) (hs : s < p.library.size)
    (hk : k ≤ p.library.size) (hnone : ∀ j < k, p.loadable? ((s + j) % p.library.size) = none) (m : Nat) :
    ∃ p', loadPlayable (k + m) s p = loadPlayable m ((s + k) % p.library.size) p' ∧ Passed s k p p' := by
  induction k generalizing m with
  | zero =>
    have hstart : (s + 0) % p.library.size = s := Nat.mod_eq_of_lt hs
    refine ⟨p, by rw [Nat.zero_add, hstart], rfl, ?_, rfl, rfl, rfl, nofun⟩
    rw [hstart, ← hcurrent]
  | succ k ih =>
    obtain ⟨p', hattempts, hpassed⟩ := ih (by omega) (fun j hj => hnone j (by omega)) (m + 1)
    have hmissing : p'.loadable? ((s + k) % p.library.size) = none := by
      rw [hpassed.loadable?_eq (by omega)]
      exact hnone k (by omega)
    obtain ⟨e, clock, notices, hwait, hready, hload⟩ := load_of_loadable?_eq_none hmissing
    -- the selector is at the place of the attempt, so it goes on to the one behind it
    have hnames : p'.library.names.length = p.library.size := by
      rw [Library.length_names, hpassed.size_eq]
    have hplace : p'.selector.current < p'.library.names.length := by
      rw [hpassed.selector_eq, hnames]
      exact Nat.mod_lt _ (by omega)
    have hselect := Selector.select_next hplace
    rw [hnames, hpassed.selector_eq] at hselect
    have hnext : ((s + k) % p.library.size + 1) % p.library.size = (s + (k + 1)) % p.library.size := by
      rw [Nat.mod_add_mod, Nat.add_assoc]
    rw [show k + 1 + m = k + (m + 1) by omega, hattempts, loadPlayable, hload]
    simp only [report, Library.names_openTrack]
    rw [hpassed.selector_eq, hselect]
    dsimp only
    rw [hnext]
    exact ⟨_, rfl, hpassed.succ hwait hready _⟩

private theorem opened_placesFrom {l : Library} (hs : s < l.size) (hk : k ≤ l.size) :
    Library.Opened (placesFrom l.size s k) l (l.openAll (placesFrom l.size s k)) := by
  refine Library.opened_openAll (nodup_placesFrom hk) ?_
  intro i hi
  exact lt_of_mem_placesFrom (by omega) hi

/-- The attempt that succeeds after those that fail. -/
private theorem loadPlayable_lands (hcurrent : p.selector.current = s) (hs : s < p.library.size)
    (hk : k < p.library.size) (hnone : ∀ j < k, p.loadable? ((s + j) % p.library.size) = none)
    (ht : p.loadable? ((s + k) % p.library.size) = some t) :
    ∃ p', loadPlayable p.library.size s p = .ok ((s + k) % p.library.size) p' ∧
      Library.Opened (placesFrom p.library.size s (k + 1)) p.library p'.library ∧
      p'.index = (s + k) % p.library.size ∧ p'.track? = some t ∧ p'.loopCount = 0 ∧ p'.clock.wait = 0 ∧
      p'.clock.ready = true ∧
      p'.chip.toList = p.chip.toList ++ [.clock (t.header.get .ym2151Clock), .reset] := by
  obtain ⟨m, hm⟩ : ∃ m, p.library.size = k + (m + 1) := ⟨p.library.size - k - 1, by omega⟩
  obtain ⟨p', hattempts, hpassed⟩ := loadPlayable_passes hcurrent hs (Nat.le_of_lt hk) hnone (m + 1)
  have harrives : p'.loadable? ((s + k) % p.library.size) = some t := (hpassed.loadable?_eq hk).trans ht
  obtain ⟨hunplayed, clock, notices, hwait, hload⟩ := load_of_loadable?_eq_some harrives
  let landed : Player := { p' with
    library := (p'.library.openTrack ((s + k) % p.library.size)).2
    track? := some t
    clock := { clock with ready := true }
    chip := p'.chip ++ #[.clock (t.header.get .ym2151Clock), .reset]
    notices }
  have hdone : loadPlayable (m + 1) ((s + k) % p.library.size) p' = .ok ((s + k) % p.library.size) landed := by
    rw [loadPlayable, hload]
  have hlibrary : landed.library = p.library.openAll (placesFrom p.library.size s (k + 1)) := by
    show (p'.library.openTrack _).2 = _
    rw [placesFrom_succ, Library.openAll_concat, hpassed.library_eq]
  refine ⟨landed, ?_, ?_, ?_, rfl, hunplayed.loopCount_eq, hwait, rfl, ?_⟩
  · calc loadPlayable p.library.size s p = loadPlayable (k + (m + 1)) s p := by rw [← hm]
      _ = loadPlayable (m + 1) ((s + k) % p.library.size) p' := hattempts
      _ = .ok ((s + k) % p.library.size) landed := hdone
  · rw [hlibrary]
    exact opened_placesFrom hs hk
  · show p'.selector.current = _
    rw [hpassed.selector_eq]
  · show (p'.chip ++ _).toList = _
    rw [hpassed.chip_eq, Array.toList_append]

/-- All attempts fail, and the last one leaves the selector where the first one was made. -/
private theorem loadPlayable_gives_up (hcurrent : p.selector.current = s) (hs : s < p.library.size)
    (hnone : ∀ k < p.library.size, p.loadable? ((s + k) % p.library.size) = none) :
    ∃ p', loadPlayable p.library.size s p = .error (.noPlayableTrack p.library.size) p' ∧
      Library.Opened (placesFrom p.library.size s p.library.size) p.library p'.library ∧
      p'.index = s ∧ p'.track? = none ∧ p'.clock.wait = 0 ∧ p'.clock.ready = p.clock.ready ∧ p'.chip = p.chip := by
  obtain ⟨p', hattempts, hpassed⟩ := loadPlayable_passes hcurrent hs (Nat.le_refl _) hnone 0
  obtain ⟨hgone, hwait⟩ := hpassed.gone (by omega)
  refine ⟨p', ?_, ?_, ?_, hgone, hwait, hpassed.ready_eq, hpassed.chip_eq⟩
  · rw [Nat.add_zero] at hattempts
    rw [hattempts, loadPlayable, hpassed.size_eq]
  · rw [hpassed.library_eq]
    exact opened_placesFrom hs (Nat.le_refl _)
  · rw [index, hpassed.selector_eq]
    show (s + p.library.size) % p.library.size = s
    rw [Nat.add_mod_right, Nat.mod_eq_of_lt hs]

/-! ### Switches -/

/-- The player as a switch to the place `s` finds it when it begins to load tracks. -/
private def held (p : Player) (s : Nat) (words : RandomWords) : Player :=
  { p with selector := { current := s, words }, clock := { p.clock with ready := false } }

private theorem selectTrack_of_select {choice : Choice} {selector : Selector}
    (hselect : Selector.select p.library.names choice p.selector = .ok s selector) :
    s < p.library.size ∧ ∃ words, selectTrack choice p = loadPlayable p.library.size s (p.held s words) := by
  rcases Selector.select_cases p.library.names choice p.selector with
    ⟨-, hrefused⟩ | ⟨name, -, -, hrefused⟩ | ⟨index, words, hlt, hchosen⟩
  · rw [hrefused] at hselect
    cases hselect
  · rw [hrefused] at hselect
    cases hselect
  · have hswitch : selectTrack choice p = loadPlayable p.library.size index (p.held index words) := by
      unfold selectTrack
      dsimp only
      rw [hchosen]
      rfl
    rw [hchosen] at hselect
    cases hselect
    rw [Library.length_names] at hlt
    exact ⟨hlt, words, hswitch⟩

/-- A choice that is resolved to the place `s` leads to the first place from `s` on and round that gives a track, and
to that track.  If there is none, the library was gone through once, and no track is left. -/
theorem selectTrack_lands {choice : Choice} {selector : Selector}
    (hselect : Selector.select p.library.names choice p.selector = .ok s selector) :
    (∀ k < p.library.size, ∀ t, (∀ j < k, p.loadable? ((s + j) % p.library.size) = none) →
      p.loadable? ((s + k) % p.library.size) = some t →
      ∃ p', selectTrack choice p = .ok ((s + k) % p.library.size) p' ∧
        Library.Opened (placesFrom p.library.size s (k + 1)) p.library p'.library ∧
        p'.index = (s + k) % p.library.size ∧ p'.track? = some t ∧ p'.loopCount = 0 ∧ p'.clock.wait = 0 ∧
        p'.clock.ready = true ∧
        p'.chip.toList = p.chip.toList ++ [.clock (t.header.get .ym2151Clock), .reset]) ∧
    ((∀ k < p.library.size, p.loadable? ((s + k) % p.library.size) = none) →
      ∃ p', selectTrack choice p = .error (.noPlayableTrack p.library.size) p' ∧
        Library.Opened (placesFrom p.library.size s p.library.size) p.library p'.library ∧
        p'.index = s ∧ p'.track? = none ∧ p'.clock.wait = 0 ∧ p'.clock.ready = false ∧ p'.chip = p.chip) := by
  obtain ⟨hs, words, hswitch⟩ := selectTrack_of_select hselect
  constructor
  · intro k hk t hnone ht
    obtain ⟨p', hlands, hrest⟩ := loadPlayable_lands (p := p.held s words) rfl hs hk hnone ht
    exact ⟨p', hswitch.trans hlands, hrest⟩
  · intro hnone
    obtain ⟨p', hfails, hrest⟩ := loadPlayable_gives_up (p := p.held s words) rfl hs hnone
    exact ⟨p', hswitch.trans hfails, hrest⟩

private def looping : Track :=
  .ofBytes "looping" ([0x56, 0x67, 0x6D, 0x20] ++ List.replicate 0x3C 0 ++ [0x71, 0x66])

private def short : Track := .ofBytes "short" [0x56, 0x67]

/-- A track without a name that cannot be opened the first time. -/
private def late : Track where
  name? := none
  contents := fun k => if k = 1 then .error (.openFault 1) else looping.contents k

private def browsing (tracks : List Track) : Player where
  library := { tracks := tracks.toArray }
  selector := {}
  config := { bufferCapacity := 2, loopHeadLength := 1 }

/-- From the last track on, round to the first, and to the second; and round two tracks to no avail. -/
theorem selectTrack_lands_browsing :
    (∃ t p', selectTrack .previous (browsing [short, looping, late]) = .ok 1 p' ∧ p'.track? = some t ∧
      Library.Opened [2, 0, 1] (browsing [short, looping, late]).library p'.library ∧ p'.index = 1 ∧
      p'.chip.toList = [.clock (t.header.get .ym2151Clock), .reset]) ∧
    ∃ p', selectTrack .next (browsing [short, late]) = .error (.noPlayableTrack 2) p' ∧
      Library.Opened [1, 0] (browsing [short, late]).library p'.library ∧ p'.index = 1 ∧ p'.track? = none := by
  constructor
  · have hchosen : Selector.select (browsing [short, looping, late]).library.names .previous {} =
        .ok 2 { current := 2 } := rfl
    have hlate : (browsing [short, looping, late]).loadable? 2 = none := rfl
    have hshort : ((browsing [short, looping, late]).loadable? 0).isNone = true := by decide +kernel
    have hlooping : ((browsing [short, looping, late]).loadable? 1).isSome = true := by decide +kernel
    obtain ⟨t, ht⟩ := Option.isSome_iff_exists.1 hlooping
    have hnone : ∀ j < 2, (browsing [short, looping, late]).loadable? ((2 + j) % 3) = none := by
      intro j hj
      match j, hj with
      | 0, _ => exact hlate
      | 1, _ => exact Option.isNone_iff_eq_none.1 hshort
    obtain ⟨p', hselect, hopened, hindex, htrack, -, -, -, hchip⟩ :=
      (selectTrack_lands hchosen).1 2 (by decide) t hnone ht
    exact ⟨t, p', hselect, htrack, hopened, hindex, hchip⟩
  · have hchosen : Selector.select (browsing [short, late]).library.names .next {} = .ok 1 { current := 1 } := rfl
    have hlate : (browsing [short, late]).loadable? 1 = none := rfl
    have hshort : ((browsing [short, late]).loadable? 0).isNone = true := by decide +kernel
    have hnone : ∀ j < 2, (browsing [short, late]).loadable? ((1 + j) % 2) = none := by
      intro j hj
      match j, hj with
      | 0, _ => exact hlate
      | 1, _ => exact Option.isNone_iff_eq_none.1 hshort
    obtain ⟨p', hselect, hopened, hindex, htrack, -⟩ := (selectTrack_lands hchosen).2 hnone
    exact ⟨p', hselect, hopened, hindex, htrack⟩

end Player

end VgmPlayback
