import VgmPlayback.Proofs.PlayerRuns
import VgmPlayback.Proofs.PlayingFromMemory
import VgmPlayback.Proofs.Selection

/-!
# Tours

A `Tour` is to a player what a `Score` is to a playthrough: what a player of tracks in memory plays, apart from how
much it has read ahead, what it has to wait, and when it is polled.  A player follows a tour (`Player.Follows`):
a tick, or a poll that is spent waiting, leaves it where it is on the tour, and every other poll takes it one
advance further (`Player.Follows.poll`).  What has gone to the chip and which tracks were loaded only grows along a
tour (`Tour.extends_after_of_le`).
-/

namespace VgmPlayback

def Library.ofMemory (entries : List (String × List UInt8)) : Library where
  tracks := (entries.map fun e => .ofBytes e.1 e.2).toArray

/-- The header of an image that can be played: the commands start within it, and it begins with the identifier. -/
def Header.playable? (image : List UInt8) : Option Header :=
  match Header.decode image with
  | .error _ => none
  | .ok h => if h.dataStart ≤ image.length ∧ h.verify = true then some h else none

/-- The score that an image with this header holds. -/
def Header.score (h : Header) (image : List UInt8) : Score where
  image
  dataStart := h.dataStart
  loopStart := h.loopStart

structure Tour where
  entries : List (String × List UInt8)
  selector : Selector
  mode : PlayMode
  maxLoops : UInt32
  /-- The score being played and the place in it, if a track is loaded. -/
  at? : Option (Score × Score.Place) := none
  chip : List ChipEvent := []
  loaded : List Nat := []

namespace Tour

def names (s : Tour) : List (Option String) := s.entries.map fun e => some e.1

/-- Loads the track at `index`, if it can be played. -/
def load (index : Nat) (s : Tour) : Option Tour :=
  match s.entries[index]? with
  | none => none
  | some (_, image) => (Header.playable? image).map fun h => { s with
      at? := some (h.score image, (h.score image).start)
      chip := s.chip ++ [.clock (h.get .ym2151Clock), .reset]
      loaded := s.loaded ++ [index] }

/-- Loads the track at `index`, or else the next one that can be played, in `attempts` attempts. -/
def loadPlayable : (attempts : Nat) → (index : Nat) → Tour → Tour
  | 0, _, s => s
  | attempts + 1, index, s =>
    match s.load index with
    | some s => s
    | none =>
      let s := { s with at? := none }
      match Selector.select s.names .next s.selector with
      | .error _ selector => { s with selector }
      | .ok index selector => loadPlayable attempts index { s with selector }

def select (choice : Choice) (s : Tour) : Tour :=
  match Selector.select s.names choice s.selector with
  | .error _ selector => { s with selector }
  | .ok index selector => loadPlayable s.entries.length index { s with selector }

/-- Executes the next command of the score, or leaves a score that has ended, and switches to another track if
there is a reason. -/
def advance (s : Tour) : Tour :=
  match s.at? with
  | none => s
  | some (score, place) =>
    match score.next? place with
    | none => s.select .next
    | some (c, place) =>
      let s := { s with at? := some (score, place), chip := s.chip ++ c.writes.map .write }
      match if s.maxLoops ≤ place.loops then s.mode.advance? else none with
      | none => s
      | some choice => s.select choice

def start (entries : List (String × List UInt8)) (mode : PlayMode) (maxLoops : UInt32) (words : RandomWords) : Tour :=
  select .first { entries, mode, maxLoops, selector := { words } }

def after : Nat → Tour → Tour
  | 0, s => s
  | n + 1, s => s.advance.after n

theorem after_add (n m : Nat) (s : Tour) : s.after (n + m) = (s.after n).after m := by
  induction n generalizing s with
  | zero => rw [Nat.zero_add]; rfl
  | succ n ih =>
    rw [Nat.succ_add]
    exact ih s.advance

/-! ### What grows along a tour -/

/-- `s'` has sent all that `s` has, and loaded all that `s` has. -/
structure Extends (s s' : Tour) : Prop where
  chip : s.chip <+: s'.chip
  loaded : s.loaded <+: s'.loaded

theorem Extends.refl (s : Tour) : Extends s s := ⟨List.prefix_rfl, List.prefix_rfl⟩

theorem Extends.trans {s s' s'' : Tour} (h : Extends s s') (h' : Extends s' s'') : Extends s s'' :=
  ⟨h.chip.trans h'.chip, h.loaded.trans h'.loaded⟩

private theorem extends_load {index : Nat} {s s' : Tour} (h : s.load index = some s') : Extends s s' := by
  unfold load at h
  split at h
  · cases h
  · obtain ⟨header, -, rfl⟩ := Option.map_eq_some_iff.1 h
    exact ⟨List.prefix_append _ _, List.prefix_append _ _⟩

private theorem extends_loadPlayable (attempts index : Nat) (s : Tour) :
    Extends s (s.loadPlayable attempts index) := by
  induction attempts generalizing index s with
  | zero => exact .refl s
  | succ attempts ih =>
    unfold loadPlayable
    split
    · rename_i s' hload
      exact extends_load hload
    · dsimp only
      split
      · exact ⟨List.prefix_rfl, List.prefix_rfl⟩
      · rename_i next selector hselect
        have hnext := ih next { s with at? := none, selector }
        exact ⟨hnext.chip, hnext.loaded⟩

private theorem extends_select (choice : Choice) (s : Tour) : Extends s (s.select choice) := by
  unfold select
  split
  · exact ⟨List.prefix_rfl, List.prefix_rfl⟩
  · rename_i index selector hselect
    have hload := extends_loadPlayable s.entries.length index { s with selector }
    exact ⟨hload.chip, hload.loaded⟩

theorem extends_advance (s : Tour) : Extends s s.advance := by
  unfold advance
  split
  · exact .refl s
  · rename_i score place hat
    split
    · exact extends_select .next s
    · rename_i c place' hnext
      have hplayed : Extends s { s with at? := some (score, place'), chip := s.chip ++ c.writes.map .write } :=
        ⟨List.prefix_append _ _, List.prefix_rfl⟩
      dsimp only
      split
      · exact hplayed
      · rename_i choice hchoice
        exact hplayed.trans (extends_select choice _)

theorem extends_after (n : Nat) (s : Tour) : Extends s (s.after n) := by
  induction n generalizing s with
  | zero => exact .refl s
  | succ n ih => exact (extends_advance s).trans (ih s.advance)

theorem extends_after_of_le {n m : Nat} (h : n ≤ m) (s : Tour) : Extends (s.after n) (s.after m) := by
  obtain ⟨k, rfl⟩ := Nat.exists_eq_add_of_le h
  rw [after_add]
  exact extends_after k (s.after n)

end Tour

/-! ### Libraries in memory -/

namespace Library

variable {l : Library} {entries : List (String × List UInt8)}

/-- The tracks of the library are these names and images, however often they have been opened. -/
structure Holds (l : Library) (entries : List (String × List UInt8)) : Prop where
  size_eq : l.tracks.size = entries.length
  track : ∀ (i : Nat) (e : String × List UInt8), entries[i]? = some e →
    ∃ t : Track, l.tracks[i]? = some t ∧ t.name? = some e.1 ∧ t.contents = fun _ => .ok (.ofBytes e.2)

theorem holds_ofMemory (entries : List (String × List UInt8)) : (ofMemory entries).Holds entries := by
  refine ⟨by simp [ofMemory], ?_⟩
  intro i e he
  exact ⟨.ofBytes e.1 e.2, by simp [ofMemory, he], rfl, rfl⟩

theorem Holds.names_eq (h : l.Holds entries) : l.names = entries.map fun e => some e.1 := by
  apply List.ext_getElem?
  intro i
  rw [names, List.getElem?_map, List.getElem?_map, Array.getElem?_toList]
  cases he : entries[i]? with
  | none =>
    have hlength := List.getElem?_eq_none_iff.1 he
    rw [Array.getElem?_eq_none (by rw [h.size_eq]; exact hlength)]
    rfl
  | some e =>
    obtain ⟨t, ht, hname, -⟩ := h.track i e he
    rw [ht]
    exact congrArg some hname

theorem Holds.openTrack_of_none (h : l.Holds entries) {i : Nat} (he : entries[i]? = none) :
    l.openTrack i = (.error (.noTrack i), l) := by
  have hlength := List.getElem?_eq_none_iff.1 he
  have hnone : l.tracks[i]? = none := Array.getElem?_eq_none (by rw [h.size_eq]; exact hlength)
  simp only [openTrack, hnone]

theorem Holds.openTrack_of_some (h : l.Holds entries) {i : Nat} {e : String × List UInt8}
    (he : entries[i]? = some e) :
    ∃ l', l.openTrack i = (.ok (.ofBytes e.2), l') ∧ l'.Holds entries := by
  obtain ⟨t, ht, hname, hcontents⟩ := h.track i e he
  refine ⟨{ tracks := l.tracks.setIfInBounds i { t with openings := t.openings + 1 } }, ?_, ?_, ?_⟩
  · simp only [openTrack, ht, hcontents]
  · rw [Array.size_setIfInBounds, h.size_eq]
  · intro j e' he'
    by_cases hij : i = j
    · subst hij
      rw [he] at he'
      cases he'
      have hlt := (Array.getElem?_eq_some_iff.1 ht).1
      exact ⟨{ t with openings := t.openings + 1 }, by rw [Array.getElem?_setIfInBounds_self_of_lt hlt], hname,
        hcontents⟩
    · obtain ⟨t', ht', hname', hcontents'⟩ := h.track j e' he'
      exact ⟨t', by rw [Array.getElem?_setIfInBounds_ne hij, ht'], hname', hcontents'⟩

end Library

/-! ### Players on a tour -/

namespace Player

/-- The track being played is at this place of this score, or there is neither. -/
inductive TrackAt : Option Playthrough → Option (Score × Score.Place) → Prop where
  | silent : TrackAt none none
  | playing {t : Playthrough} {score : Score} {place : Score.Place} (h : t.Plays score place) :
    TrackAt (some t) (some (score, place))

/-- The player is where the tour is, the track aside. -/
structure Beside (p : Player) (s : Tour) : Prop where
  entries_ne : s.entries ≠ []
  holds : p.library.Holds s.entries
  selector_eq : p.selector = s.selector
  mode_eq : p.config.mode = s.mode
  maxLoops_eq : p.config.maxLoops = s.maxLoops
  chip_eq : p.chip.toList = s.chip
  loaded_eq : p.loaded = s.loaded

/-- The player is where the tour is.  The clock and what the stream has read ahead do not matter. -/
structure Follows (p : Player) (s : Tour) : Prop extends Beside p s where
  trackAt : TrackAt p.track? s.at?

variable {p : Player} {s : Tour}

/-- Over an image in memory, preparing a track succeeds exactly if the image can be played. -/
theorem prepare_ofBytes (image : List UInt8) (config : PlayerConfig) (clock : SampleClock) :
    (Header.playable? image = none ∧ ∃ e clock' notices, prepare config (.ofBytes image) clock = (.error e, clock', notices)) ∨
    ∃ h t clock' notices, Header.playable? image = some h ∧
      prepare config (.ofBytes image) clock = (.ok t, clock', notices) ∧ t.header = h ∧
      t.Plays (h.score image) (h.score image).start := by
  cases hstart : Playthrough.start (.ofBytes image) config.bufferCapacity config.loopHeadLength with
  | error e =>
    left
    refine ⟨?_, e, clock, [], by simp only [prepare, hstart]⟩
    unfold Header.playable?
    split
    · rfl
    · rename_i h hdec
      -- otherwise the track would have started
      refine if_neg ?_
      rintro ⟨hdata, -⟩
      obtain ⟨t, hstart', -⟩ := Playthrough.start_ofBytes hdec hdata config.bufferCapacity config.loopHeadLength
      rw [hstart] at hstart'
      cases hstart'
  | ok t =>
    obtain ⟨hdec, hdata⟩ := Playthrough.of_start_eq_ok hstart
    obtain ⟨t', hstart', hheader, hplays, -⟩ :=
      Playthrough.start_ofBytes hdec hdata config.bufferCapacity config.loopHeadLength
    rw [hstart] at hstart'
    cases hstart'
    by_cases hverify : t.verify = true
    · right
      obtain ⟨gd3, notices, hload⟩ := hplays.loadMetadata
      refine ⟨t.header, { t with gd3 }, t.publish clock, t.startNotice :: notices, ?_, ?_, rfl, ⟨hplays.standsAt, hplays.copyOf, hplays.loopCount_eq⟩⟩
      · simp only [Header.playable?, hdec]
        exact if_pos ⟨hdata, hverify⟩
      · simp only [prepare, hstart, hverify, Bool.not_true, Bool.false_eq_true, if_false, hload]
        rfl
    · left
      refine ⟨?_, .invalidIdent (t.header.get .ident), t.publish clock, [t.startNotice], ?_⟩
      · simp only [Header.playable?, hdec]
        exact if_neg fun h => hverify h.2
      · simp only [prepare, hstart]
        exact if_pos (by simp [hverify])

private theorem Beside.load (h : p.Beside s) (index : Nat) :
    (∃ p' s', Player.load index p = .ok () p' ∧ s.load index = some s' ∧ p'.Follows s') ∨
    ∃ e p', Player.load index p = .error e p' ∧ s.load index = none ∧ p'.Follows { s with at? := none } := by
  unfold Player.load Tour.load
  dsimp only
  cases hentry : s.entries[index]? with
  | none =>
    right
    rw [h.holds.openTrack_of_none hentry]
    exact ⟨_, _, rfl, rfl, { h with }, .silent⟩
  | some entry =>
    obtain ⟨library, hopen, hholds⟩ := h.holds.openTrack_of_some hentry
    obtain ⟨-, -, hnotices, -⟩ := prepare_cases p.config (.ofBytes entry.2) { p.clock with wait := 0 }
    rw [hopen]
    dsimp only
    rcases prepare_ofBytes entry.2 p.config { p.clock with wait := 0 } with
      ⟨hnone, e, clock, notices, hprepare⟩ | ⟨header, t, clock, notices, hsome, hprepare, hheader, hplays⟩
    · right
      rw [hprepare] at hnotices
      rw [hprepare, hnone]
      refine ⟨_, _, rfl, rfl, { h with holds := hholds, loaded_eq := ?_ }, .silent⟩
      show (report _ _).loaded = _
      rw [loaded_report, hnotices, List.append_nil]
      exact h.loaded_eq
    · left
      rw [hprepare] at hnotices
      rw [hprepare, hsome]
      refine ⟨_, _, rfl, rfl, { h with holds := hholds, chip_eq := ?_, loaded_eq := ?_ }, .playing hplays⟩
      · show (_ ++ _ : Array ChipEvent).toList = _
        rw [Array.toList_append, ← h.chip_eq, ← hheader]
        rfl
      · show (report _ _).loaded = _
        rw [loaded_report, List.filterMap_append, hnotices, ← h.loaded_eq]
        rfl

private theorem Beside.names_eq (h : p.Beside s) : p.library.names = s.names := h.holds.names_eq

/-- A row of attempts of the player is one of the tour.  The track from before matters only if there is none. -/
private theorem Beside.loadPlayable (h : p.Beside s) (attempts index : Nat)
    (hzero : attempts = 0 → TrackAt p.track? s.at?) :
    (leftBy (Player.loadPlayable attempts index p)).Follows (s.loadPlayable attempts index) := by
  -- the first attempt drops the track, so from then on there is nothing to assume about it
  induction attempts generalizing index p s with
  | zero => exact ⟨h, hzero rfl⟩
  | succ attempts ih =>
    unfold Player.loadPlayable Tour.loadPlayable
    rcases h.load index with ⟨p', s', hload, htour, hfollows⟩ | ⟨e, p', hload, htour, hfollows⟩
    · rw [hload, htour]
      exact hfollows
    · have hskipped : ∀ selector,
          Follows { p'.report [.trackSkipped (p'.library.name? index) e] with selector }
            { s with at? := none, selector } := by
        intro selector
        refine ⟨{ hfollows with selector_eq := rfl, loaded_eq := ?_ }, hfollows.trackAt⟩
        exact ((loaded_report p' _).trans (List.append_nil _)).trans hfollows.loaded_eq
      have hnames : (p'.report [.trackSkipped (p'.library.name? index) e]).library.names = s.names :=
        hfollows.names_eq
      have hselector : (p'.report [.trackSkipped (p'.library.name? index) e]).selector = s.selector :=
        hfollows.selector_eq
      rw [hload, htour]
      dsimp only
      rw [hnames, hselector]
      show Follows (leftBy (match Selector.select s.names .next s.selector with
        | .error e' selector => _
        | .ok next selector => _)) (match Selector.select s.names .next s.selector with
        | .error _ selector => _
        | .ok next selector => _)
      cases Selector.select s.names .next s.selector with
      | error e' selector => exact hskipped selector
      | ok next selector => exact ih (hskipped selector).toBeside next fun _ => (hskipped selector).trackAt

/-- A switch of the player is a switch of the tour.  The track from before matters only if the choice cannot be
met. -/
private theorem Beside.select (h : p.Beside s) (choice : Choice)
    (hrefused : ∀ e selector, Selector.select s.names choice s.selector = .error e selector →
      TrackAt p.track? s.at?) :
    (leftBy (selectTrack choice p)).Follows (s.select choice) := by
  have hsize : p.library.size = s.entries.length := h.holds.size_eq
  unfold selectTrack Tour.select
  dsimp only
  rw [h.names_eq, h.selector_eq]
  cases hselect : Selector.select s.names choice s.selector with
  | error e selector => exact ⟨{ h with selector_eq := rfl }, hrefused e selector hselect⟩
  | ok index selector =>
    have hselected : Beside { p with selector, clock := { p.clock with ready := false } } { s with selector } :=
      { h with selector_eq := rfl }
    dsimp only
    rw [hsize]
    exact hselected.loadPlayable s.entries.length index fun hzero =>
      absurd (List.length_eq_zero_iff.1 hzero) h.entries_ne

private theorem select_next_ne_error (hne : s.entries ≠ []) (e : PlaybackError) (selector : Selector) :
    Selector.select s.names .next s.selector ≠ .error e selector := by
  rw [Selector.select_of_resolve_eq_ok (by simpa [Tour.names] using hne) rfl]
  exact nofun

theorem follows_of_start {entries : List (String × List UInt8)} {config : PlayerConfig} {words : RandomWords}
    (h : start (.ofMemory entries) config words = .ok () p) :
    p.Follows (.start entries config.mode config.maxLoops words) := by
  have hne : entries ≠ [] := by
    rintro rfl
    simp [start, selectTrack, Selector.select, Library.ofMemory, Library.names] at h
  have hbeside : Beside { library := .ofMemory entries, config, selector := { words } }
      { entries, mode := config.mode, maxLoops := config.maxLoops, selector := { words } } :=
    ⟨hne, Library.holds_ofMemory entries, rfl, rfl, rfl, rfl, rfl⟩
  have hselect := hbeside.select .first fun _ _ _ => .silent
  unfold start at h
  split at h
  · rename_i index p' heq
    cases h
    rw [heq] at hselect
    exact hselect
  · cases h

/-! ### Polls -/

private theorem toList_chip_absorb (p : Player) (s : Playthrough.Step) :
    (p.absorb s).chip.toList = p.chip.toList ++ s.writes.map .write := by
  simp [absorb, send, report]

/-- Where the tour has a command to execute or a score to leave, so does the player, unless it waits. -/
private theorem turn_of_plays {t : Playthrough} {score : Score} {place : Score.Place} (h : t.Plays score place)
    (clock : SampleClock) :
    (∃ stream, turn t clock =
        (none, ⟨.ok 0, { t with stream }, ({ t with stream } : Playthrough).publish clock, [], []⟩) ∧
      ({ t with stream } : Playthrough).Plays score place) ∨
    (score.next? place = none ∧ ∃ e step, turn t clock = (some (.error e), step) ∧ step.writes = []) ∨
    ∃ c place' step, score.next? place = some (c, place') ∧ turn t clock = (some (.ok c.samples), step) ∧
      step.writes = c.writes ∧ step.track.Plays score place' := by
  obtain ⟨done, stream, hrefill, hplays, -⟩ := h.refill clock
  simp only [turn, hrefill]
  split
  · exact .inl ⟨stream, rfl, hplays⟩
  · right
    cases hnext : score.next? place with
    | none =>
      left
      obtain ⟨stream', notices, hstep⟩ :=
        hplays.step_of_next?_none hnext (({ t with stream } : Playthrough).publish clock)
      exact ⟨rfl, .unexpectedEof, _, by rw [hstep], rfl⟩
    | some next =>
      right
      obtain ⟨c, place'⟩ := next
      have hexecuted := hplays.step_of_next?_some hnext (({ t with stream } : Playthrough).publish clock)
      exact ⟨c, place', _, rfl, by rw [hexecuted.result_eq], hexecuted.writes_eq, hexecuted.plays⟩

private theorem TrackAt.cases {track? : Option Playthrough} {at? : Option (Score × Score.Place)}
    (h : TrackAt track? at?) : (track? = none ∧ at? = none) ∨
      ∃ t score place, track? = some t ∧ at? = some (score, place) ∧ t.Plays score place := by
  cases h with
  | silent => exact .inl ⟨rfl, rfl⟩
  | playing hplays => exact .inr ⟨_, _, _, rfl, rfl, hplays⟩

/-- A poll leaves the player where it is on the tour or takes it one advance further. -/
theorem Follows.poll (h : p.Follows s) : (p.apply .poll).Follows s ∨ (p.apply .poll).Follows s.advance := by
  rw [apply_poll]
  rcases h.trackAt.cases with ⟨htrack, -⟩ | ⟨t, score, place, htrack, hat, hplays⟩
  · left
    rw [playOn_of_track?_eq_none htrack]
    exact h
  · have hloaded := loaded_absorb_turn p t p.clock
    rcases turn_of_plays hplays p.clock with
      ⟨stream, hturn, hplays'⟩ | ⟨hnext, e, step, hturn, hwrites⟩ | ⟨c, place', step, hnext, hturn, hwrites, hplays'⟩
    · left
      simp only [playOn, htrack, hturn, absorb_waited]
      refine ⟨{ h with }, ?_⟩
      rw [hat]
      exact .playing hplays'
    · right
      rw [hturn] at hloaded
      simp only [playOn, htrack, hturn, Tour.advance, hat, hnext]
      -- the track has come to no place of the score, but the switch drops it
      have hbroken : Beside ((p.absorb step).report [.playbackStopped e]) s := by
        refine { h with chip_eq := ?_, loaded_eq := ?_ }
        · show (p.absorb step).chip.toList = s.chip
          rw [toList_chip_absorb, hwrites, List.map_nil, List.append_nil, h.chip_eq]
        · exact ((loaded_report _ _).trans (List.append_nil _)).trans (hloaded.trans h.loaded_eq)
      exact hbroken.select .next fun e selector hselect =>
        absurd hselect (select_next_ne_error h.entries_ne e selector)
    · right
      rw [hturn] at hloaded
      obtain ⟨lastUnknown?, observed, hafter⟩ := afterCommand_cases p step c.samples
      have hplayed : (p.afterCommand step c.samples).Follows
          { s with at? := some (score, place'), chip := s.chip ++ c.writes.map .write } := by
        rw [hafter]
        refine ⟨{ h with chip_eq := ?_, loaded_eq := hloaded.trans h.loaded_eq },
          .playing ⟨hplays'.standsAt, hplays'.copyOf, hplays'.loopCount_eq⟩⟩
        show (p.absorb step).chip.toList = _
        rw [toList_chip_absorb, hwrites, h.chip_eq]
      have hloops : (p.afterCommand step c.samples).loopCount = place'.loops := by
        rw [hafter]
        exact hplays'.loopCount_eq
      simp only [playOn, htrack, hturn, Tour.advance, hat, hnext]
      rw [hloops, hplayed.maxLoops_eq, hplayed.mode_eq]
      -- both sides now decide by the same condition
      dsimp only
      cases (if s.maxLoops ≤ place'.loops then s.mode.advance? else none) with
      | none => exact hplayed
      | some choice => exact hplayed.select choice fun _ _ _ => hplayed.trackAt

end Player

end VgmPlayback
