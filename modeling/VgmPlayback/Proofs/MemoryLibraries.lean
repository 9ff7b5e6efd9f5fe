import VgmPlayback.Proofs.Selection
import VgmPlayback.Proofs.Tour

/-!
# Libraries in memory play on

A track in memory can be loaded exactly if its image is `Header.Loadable`: there is a whole header with the
identifier, and the commands start within the image.  A player over a library in memory starts if one of the images
is loadable, and then it plays on (`Player.plays_on`): whatever the tracks contain and however the player is operated,
no poll fails, no switch fails but for a name that no track has, and a track is always loaded.

The argument is in `loadPlayable_of_holds`: as many attempts as there are tracks, each at the next place, come to
every place.
-/

namespace VgmPlayback

namespace Header

open LittleEndian

/-- Where the commands of an image start by its own account, even if that is no word and no place in the image. -/
def announcedStart (image : List UInt8) : Nat :=
  let raw := (rawWord image .dataOffset).toNat
  if raw = 0 ∨ raw = 0x0C then 0x40 else raw + 0x34

/-- What an image must have for a track to be loaded from it. -/
structure Loadable (image : List UInt8) : Prop where
  size_le : 0x40 ≤ image.length
  ident_eq : image.take 4 = [0x56, 0x67, 0x6D, 0x20]
  start_lt : announcedStart image < UInt32.size
  start_le : announcedStart image ≤ image.length

private theorem word32_eq_identWord {b₀ b₁ b₂ b₃ : UInt8} :
    word32 b₀ b₁ b₂ b₃ = identWord ↔ b₀ = 0x56 ∧ b₁ = 0x67 ∧ b₂ = 0x6D ∧ b₃ = 0x20 := by
  have h₀ := b₀.toNat_lt
  have h₁ := b₁.toNat_lt
  have h₂ := b₂.toNat_lt
  have h₃ := b₃.toNat_lt
  have hident : identWord.toNat = 0x206D6756 := rfl
  have hbytes : (0x56 : UInt8).toNat = 0x56 ∧ (0x67 : UInt8).toNat = 0x67 ∧ (0x6D : UInt8).toNat = 0x6D ∧
      (0x20 : UInt8).toNat = 0x20 := by decide
  simp only [← UInt32.toNat_inj, ← UInt8.toNat_inj, word32, UInt32.toNat_ofNat', hident, hbytes]
  omega

private theorem rawWord_ident_eq_iff {image : List UInt8} (h : 0x40 ≤ image.length) :
    rawWord image .ident = identWord ↔ image.take 4 = [0x56, 0x67, 0x6D, 0x20] := by
  rcases image with _ | ⟨b₀, _ | ⟨b₁, _ | ⟨b₂, _ | ⟨b₃, rest⟩⟩⟩⟩
  case cons.cons.cons.cons =>
    have hword : rawWord (b₀ :: b₁ :: b₂ :: b₃ :: rest) .ident = word32 b₀ b₁ b₂ b₃ := rfl
    rw [hword, word32_eq_identWord]
    simp
  all_goals simp at h

private theorem absoluteData?_cases (image : List UInt8) :
    (absoluteData? (rawWord image .dataOffset) = none ∧ UInt32.size ≤ announcedStart image) ∨
    ∃ data, absoluteData? (rawWord image .dataOffset) = some data ∧ data.toNat = announcedStart image := by
  unfold absoluteData? announcedStart
  generalize rawWord image .dataOffset = raw
  have hlt := raw.toNat_lt
  have hzero : raw = 0 ∨ raw = 0x0C ↔ raw.toNat = 0 ∨ raw.toNat = 0x0C := by
    simp only [← UInt32.toNat_inj]
    rfl
  by_cases hlegacy : raw = 0 ∨ raw = 0x0C
  · right
    exact ⟨0x40, if_pos hlegacy, (if_pos (hzero.1 hlegacy)).symm⟩
  · have hlegacy' := mt hzero.2 hlegacy
    dsimp only
    rw [if_neg hlegacy, if_neg hlegacy']
    have hoffset : Field.dataOffset.offset = 0x34 := rfl
    have hsize : UInt32.size = 2 ^ 32 := rfl
    by_cases hfits : raw.toNat + Field.dataOffset.offset < UInt32.size
    · right
      refine ⟨raw + 0x34, if_pos hfits, ?_⟩
      have hadd : (raw + 0x34).toNat = (raw.toNat + 0x34) % 2 ^ 32 := UInt32.toNat_add raw 0x34
      omega
    · left
      exact ⟨if_neg hfits, by omega⟩

theorem isSome_playable?_iff (image : List UInt8) : (playable? image).isSome = true ↔ Loadable image := by
  have hident : ∀ data, (ofImage image data).get .ident = rawWord image .ident := by
    intro data
    have hle : Field.ident.offset ≤ Field.dataOffset.offset := by decide
    simp [ofImage, Field.present, hle]
  have hstart : ∀ data, (ofImage image data).dataStart = data.toNat := by
    intro data
    simp [ofImage, dataStart]
  have hmin : minHeaderSize = 0x40 := rfl
  unfold playable? decode
  by_cases hshort : image.length < minHeaderSize
  · rw [if_pos hshort]
    constructor
    · intro h
      cases h
    · intro h
      have := h.size_le
      omega
  · rw [if_neg hshort]
    have hsize : 0x40 ≤ image.length := by omega
    rcases absoluteData?_cases image with ⟨hnone, hout⟩ | ⟨data, hsome, hdata⟩
    · simp only [hnone]
      constructor
      · intro h
        cases h
      · intro h
        have := h.start_lt
        omega
    · have hlt : announcedStart image < UInt32.size := by
        rw [← hdata]
        exact data.toNat_lt
      simp only [hsome, hstart, verify, hident, beq_iff_eq, rawWord_ident_eq_iff hsize, hdata]
      constructor
      · intro h
        split at h
        · rename_i hand
          exact ⟨hsize, hand.2, hlt, hand.1⟩
        · cases h
      · intro h
        rw [if_pos ⟨h.start_le, h.ident_eq⟩]
        rfl

end Header

namespace Player

open Header

variable {entries : List (String × List UInt8)} {p : Player} {attempts index : Nat}

/-! ### Loading from memory -/

/-- Over a library in memory a load succeeds exactly if the image at the place can be loaded. -/
private theorem load_of_holds (h : p.library.Holds entries) (index : Nat) :
    (∃ e p', entries[index]? = some e ∧ Loadable e.2 ∧ load index p = .ok () p' ∧ p'.library.Holds entries) ∨
    ∃ cause p', (∀ e, entries[index]? = some e → ¬ Loadable e.2) ∧ load index p = .error cause p' ∧
      p'.library.Holds entries ∧ p'.selector = p.selector := by
  unfold load
  dsimp only
  cases hentry : entries[index]? with
  | none =>
    right
    rw [h.openTrack_of_none hentry]
    exact ⟨_, _, nofun, rfl, h, rfl⟩
  | some entry =>
    obtain ⟨library, hopen, hholds⟩ := h.openTrack_of_some hentry
    have hplayable := isSome_playable?_iff entry.2
    rw [hopen]
    dsimp only
    rcases prepare_ofBytes entry.2 p.config { p.clock with wait := 0 } with
      ⟨hnone, cause, clock, notices, hprepare⟩ | ⟨header, t, clock, notices, hsome, hprepare, -, -⟩
    · right
      rw [hnone] at hplayable
      rw [hprepare]
      refine ⟨_, _, ?_, rfl, hholds, rfl⟩
      intro e he hload
      cases he
      exact absurd (hplayable.2 hload) (by simp)
    · left
      rw [hsome] at hplayable
      rw [hprepare]
      exact ⟨entry, _, rfl, hplayable.1 rfl, rfl, hholds⟩

/-- A row of attempts from the current place on comes to the first image that can be loaded, if one of them meets
such an image. -/
private theorem loadPlayable_of_holds (h : p.library.Holds entries) (hcurrent : p.selector.current = index)
    (hlt : index < entries.length) (attempts : Nat) :
    (∃ i e p', loadPlayable attempts index p = .ok i p' ∧ e ∈ entries ∧ Loadable e.2 ∧ p'.library.Holds entries) ∨
    ∃ p', loadPlayable attempts index p = .error (.noPlayableTrack entries.length) p' ∧
      ∀ k < attempts, ∀ e, entries[(index + k) % entries.length]? = some e → ¬ Loadable e.2 := by
  induction attempts generalizing index p with
  | zero =>
    right
    exact ⟨p, by rw [loadPlayable, Library.size, h.size_eq], nofun⟩
  | succ attempts ih =>
    unfold loadPlayable
    rcases load_of_holds h index with ⟨e, p', hentry, hload, heq, hholds⟩ | ⟨cause, p', hnot, heq, hholds, hselector⟩
    · left
      rw [heq]
      exact ⟨index, e, p', rfl, List.mem_of_getElem? hentry, hload, hholds⟩
    · -- the attempt that failed has left the images and the selector alone, so the next one meets the next image
      have hlength : p'.library.names.length = entries.length := by
        rw [hholds.names_eq, List.length_map]
      have hnext : p'.selector.current < p'.library.names.length := by
        rw [hselector, hcurrent, hlength]
        exact hlt
      have hselect := Selector.select_next hnext
      rw [hlength, hselector, hcurrent] at hselect
      have hpos : 0 < entries.length := Nat.zero_lt_of_lt hlt
      simp only [heq, report]
      rw [hselector, hselect]
      dsimp only
      rcases ih (p := { p' with
          notices := p'.notices ++ [Notice.trackSkipped (p'.library.name? index) cause].toArray
          selector := { p.selector with current := (index + 1) % entries.length } })
          hholds rfl (Nat.mod_lt _ hpos) with hok | ⟨p'', herror, hnone⟩
      · exact .inl hok
      · right
        refine ⟨p'', herror, ?_⟩
        intro k hk e hentry
        cases k with
        | zero =>
          rw [Nat.add_zero, Nat.mod_eq_of_lt hlt] at hentry
          exact hnot e hentry
        | succ k =>
          refine hnone k (by omega) e ?_
          rw [Nat.mod_add_mod, Nat.add_assoc, Nat.add_comm 1 k]
          exact hentry

/-- A switch over a library in memory: it is refused for want of tracks or of the requested name, it finds no image
that can be loaded, or it succeeds. -/
private theorem selectTrack_of_holds (h : p.library.Holds entries) (choice : Choice) :
    (entries = [] ∧ ∃ p', selectTrack choice p = .error .noTracks p') ∨
    (∃ name, choice = .request name ∧ (∀ e ∈ entries, Text.trim e.1 ≠ Text.trim name) ∧
      selectTrack choice p =
        .error (.notFound (Text.trim name)) { p with clock := { p.clock with ready := p.track?.isSome } }) ∨
    (entries ≠ [] ∧ (∀ e ∈ entries, ¬ Loadable e.2) ∧
      ∃ p', selectTrack choice p = .error (.noPlayableTrack entries.length) p') ∨
    ∃ i p', selectTrack choice p = .ok i p' ∧ (∃ e ∈ entries, Loadable e.2) ∧ p'.library.Holds entries := by
  have hnames := h.names_eq
  unfold selectTrack
  dsimp only
  rcases Selector.select_cases p.library.names choice p.selector with
    ⟨hempty, hselect⟩ | ⟨name, hchoice, hposition, hselect⟩ | ⟨index, words, hlt, hselect⟩
  · left
    rw [hnames, List.map_eq_nil_iff] at hempty
    rw [hselect]
    exact ⟨hempty, _, rfl⟩
  · right; left
    rw [hnames, Library.positionIn?_eq_none_iff] at hposition
    rw [hselect]
    refine ⟨name, hchoice, ?_, ?_⟩
    · intro e he
      exact hposition e.1 (List.mem_map_of_mem he)
    · cases p.track? <;> rfl
  · right; right
    rw [hnames, List.length_map] at hlt
    have hsize : p.library.size = entries.length := h.size_eq
    rw [hselect, hsize]
    rcases loadPlayable_of_holds (p := { p with
        selector := { current := index, words }
        clock := { p.clock with ready := false } }) h rfl hlt entries.length with
      ⟨i, e, p', hload, hmem, hloadable, hholds⟩ | ⟨p', hload, hnone⟩
    · exact .inr ⟨i, p', hload, ⟨e, hmem, hloadable⟩, hholds⟩
    · left
      refine ⟨List.ne_nil_of_length_pos (by omega), ?_, p', hload⟩
      intro e he
      -- as many attempts as there are images meet every image
      obtain ⟨j, hj, hget⟩ := List.mem_iff_getElem.1 he
      obtain ⟨k, hk, heq⟩ := exists_add_mod_eq hlt hj
      refine hnone k hk e ?_
      rw [heq, List.getElem?_eq_getElem hj, hget]

/-! ### Runs -/

private theorem isSome_track?_of_selectTrack {choice : Choice} {index : Nat} {p' : Player}
    (h : selectTrack choice p = .ok index p') : p'.track?.isSome = true := by
  rcases selectTrack_cases choice p with ⟨e, hselect⟩ | ⟨i, p'', hselect, harrived⟩ | ⟨e, p'', hselect, -⟩
  · rw [hselect] at h
    cases h
  · rw [hselect] at h
    cases h
    obtain ⟨t, htrack, -⟩ := harrived.track
    rw [htrack]
    rfl
  · rw [hselect] at h
    cases h

/-- A player over a library in memory with an image that can be loaded, and with a track. -/
private structure Playing (entries : List (String × List UInt8)) (p : Player) : Prop where
  holds : p.library.Holds entries
  loadable : ∃ e ∈ entries, Loadable e.2
  track : p.track?.isSome = true

private theorem Playing.selectTrack (h : Playing entries p) (choice : Choice) :
    (∃ name p', choice = .request name ∧ (∀ e ∈ entries, Text.trim e.1 ≠ Text.trim name) ∧
      Player.selectTrack choice p = .error (.notFound (Text.trim name)) p' ∧ Playing entries p') ∨
    ∃ i p', Player.selectTrack choice p = .ok i p' ∧ Playing entries p' := by
  obtain ⟨e, hmem, hloadable⟩ := h.loadable
  rcases selectTrack_of_holds h.holds choice with
    ⟨hempty, -⟩ | ⟨name, hchoice, hother, hselect⟩ | ⟨-, hnone, -⟩ | ⟨i, p', hselect, -, hholds⟩
  · rw [hempty] at hmem
    cases hmem
  · exact .inl ⟨name, _, hchoice, hother, hselect, h.holds, h.loadable, h.track⟩
  · exact absurd hloadable (hnone e hmem)
  · exact .inr ⟨i, p', hselect, hholds, h.loadable, isSome_track?_of_selectTrack hselect⟩

/-- A poll asks for no switch that could be refused. -/
private theorem Playing.poll (h : Playing entries p) : ∃ p', p.poll = .ok () p' ∧ Playing entries p' := by
  obtain ⟨t, htrack⟩ := Option.isSome_iff_exists.1 h.track
  have htrack' : p.playOn.2.2.track?.isSome = true := by
    rcases playOn_cases htrack with
      ⟨stream, done, hplay, -⟩ | ⟨w, c?, p', hplay, -, -, -, hstayed⟩ | ⟨e, p', hplay, -, hstayed⟩
    · rw [hplay]
      rfl
    · obtain ⟨t', ht', -⟩ := hstayed.track
      rw [hplay, ht']
      rfl
    · obtain ⟨t', ht', -⟩ := hstayed.track
      rw [hplay, ht']
      rfl
  have hplaying : Playing entries p.playOn.2.2 := by
    refine ⟨?_, h.loadable, htrack'⟩
    rw [(playOn_keeps p).1]
    exact h.holds
  rw [poll_eq]
  cases hchoice : p.playOn.2.1 with
  | none => exact ⟨_, rfl, hplaying⟩
  | some choice =>
    rcases hplaying.selectTrack choice with ⟨name, p', hrequest, -⟩ | ⟨i, p', hselect, hplaying'⟩
    · rcases choice_of_playOn hchoice with rfl | rfl <;> cases hrequest
    · exact ⟨p', by simp only [switch, hselect], hplaying'⟩

private theorem Playing.apply (h : Playing entries p) (op : Operation) : Playing entries (p.apply op) := by
  cases op with
  | poll =>
    obtain ⟨p', hpoll, hplaying⟩ := h.poll
    show Playing entries (leftBy p.poll)
    rw [hpoll]
    exact hplaying
  | select choice =>
    show Playing entries (leftBy (Player.selectTrack choice p))
    rcases h.selectTrack choice with ⟨name, p', -, -, hselect, hplaying⟩ | ⟨i, p', hselect, hplaying⟩
    · rw [hselect]
      exact hplaying
    · rw [hselect]
      exact hplaying
  | tick => exact ⟨h.holds, h.loadable, h.track⟩
  | setMode mode => exact ⟨h.holds, h.loadable, h.track⟩
  | observe => exact ⟨h.holds, h.loadable, h.track⟩

private theorem Playing.run (h : Playing entries p) (ops : List Operation) : Playing entries (p.run ops) := by
  induction ops generalizing p with
  | nil => exact h
  | cons op ops ih => exact ih (h.apply op)

/-- What starting a player over a library in memory comes to. -/
private theorem start_ofMemory_cases (entries : List (String × List UInt8)) (config : PlayerConfig)
    (words : RandomWords) :
    (entries = [] ∧ ∃ p, start (.ofMemory entries) config words = .error .noTracks p) ∨
    (entries ≠ [] ∧ (∀ e ∈ entries, ¬ Loadable e.2) ∧
      ∃ p, start (.ofMemory entries) config words = .error (.noPlayableTrack entries.length) p) ∨
    ∃ p, start (.ofMemory entries) config words = .ok () p ∧ Playing entries p := by
  unfold start
  rcases selectTrack_of_holds (p := { library := .ofMemory entries, config, selector := { words } })
      (Library.holds_ofMemory entries) .first with
    ⟨hempty, p, hselect⟩ | ⟨name, hchoice, -⟩ | ⟨hne, hnone, p, hselect⟩ | ⟨i, p, hselect, hloadable, hholds⟩
  · exact .inl ⟨hempty, p, by rw [hselect]⟩
  · cases hchoice
  · exact .inr (.inl ⟨hne, hnone, p, by rw [hselect]⟩)
  · exact .inr (.inr ⟨p, by rw [hselect], hholds, hloadable, isSome_track?_of_selectTrack hselect⟩)

/-- A player over a library in memory fails to start without tracks, and without an image that can be loaded; that
is all.  Once it has started, after any row of operations a track is loaded, the clock is ready, a poll succeeds, and
a switch fails only for a requested name that no track has. -/
theorem plays_on (entries : List (String × List UInt8)) (config : PlayerConfig) (words : RandomWords) :
    ((∃ p, start (.ofMemory entries) config words = .error .noTracks p) ↔ entries = []) ∧
    ((∃ p, start (.ofMemory entries) config words = .error (.noPlayableTrack entries.length) p) ↔
      entries ≠ [] ∧ ∀ e ∈ entries, ¬ Loadable e.2) ∧
    ((∃ p, start (.ofMemory entries) config words = .ok () p) ↔ ∃ e ∈ entries, Loadable e.2) ∧
    ∀ p, start (.ofMemory entries) config words = .ok () p → ∀ ops : List Operation,
      (p.run ops).track?.isSome = true ∧ (p.run ops).clock.ready = true ∧ (∃ p', (p.run ops).poll = .ok () p') ∧
      ∀ choice cause p', selectTrack choice (p.run ops) = .error cause p' →
        ∃ name, choice = .request name ∧ cause = .notFound (Text.trim name) ∧
          ∀ e ∈ entries, Text.trim e.1 ≠ Text.trim name := by
  rcases start_ofMemory_cases entries config words with
    ⟨hempty, p, hstart⟩ | ⟨hne, hnone, p, hstart⟩ | ⟨p, hstart, hplaying⟩
  · subst hempty
    rw [hstart]
    simp
  · rw [hstart]
    have hsome : ¬ ∃ e ∈ entries, Loadable e.2 := fun ⟨e, hmem, hloadable⟩ => hnone e hmem hloadable
    refine ⟨?_, ⟨fun _ => ⟨hne, hnone⟩, fun _ => ⟨p, rfl⟩⟩, ?_, ?_⟩
    · simp only [EStateM.Result.error.injEq, reduceCtorEq, false_and, exists_false, hne]
    · simp only [reduceCtorEq, exists_false, hsome]
    · intro p' heq
      cases heq
  · have hsome := hplaying.loadable
    rw [hstart]
    refine ⟨?_, ?_, ⟨fun _ => hsome, fun _ => ⟨p, rfl⟩⟩, ?_⟩
    · obtain ⟨e, hmem, -⟩ := hsome
      simp only [reduceCtorEq, exists_false, false_iff]
      exact List.ne_nil_of_mem hmem
    · obtain ⟨e, hmem, hloadable⟩ := hsome
      simp only [reduceCtorEq, exists_false, false_iff]
      rintro ⟨-, hnone⟩
      exact hnone e hmem hloadable
    · intro p' heq ops
      cases heq
      have hrun := hplaying.run ops
      have hsettled := settled_run (settled_of_start hstart) ops
      obtain ⟨p'', hpoll, -⟩ := hrun.poll
      refine ⟨hrun.track, hsettled.ready_eq.trans hrun.track, ⟨p'', hpoll⟩, ?_⟩
      intro choice cause q hselect
      rcases hrun.selectTrack choice with ⟨name, q', hchoice, hother, hrefused, -⟩ | ⟨i, q', hdone, -⟩
      · rw [hselect] at hrefused
        cases hrefused
        exact ⟨name, hchoice, rfl, hother⟩
      · rw [hselect] at hdone
        cases hdone

/-- An image that is no track, before one that waits for two samples and goes round. -/
private def brokenFirst : List (String × List UInt8) :=
  [("broken", [0x56, 0x67]),
    ("round", [0x56, 0x67, 0x6D, 0x20] ++ List.replicate 0x3C 0 ++ [0x71, 0x66])]

theorem plays_on_brokenFirst : ∃ p p', start (.ofMemory brokenFirst) {} [] = .ok () p ∧
    (p.run [.poll, .tick]).track?.isSome = true ∧ (∃ p'', (p.run [.poll, .tick]).poll = .ok () p'') ∧
    selectTrack (.request "none") (p.run [.poll, .tick]) = .error (.notFound (Text.trim "none")) p' := by
  have hloadable : ∃ e ∈ brokenFirst, Loadable e.2 :=
    ⟨brokenFirst[1], by decide, by decide, by decide, by decide, by decide⟩
  obtain ⟨p, hstart⟩ := (plays_on brokenFirst {} []).2.2.1.2 hloadable
  have hp : p = leftBy (start (.ofMemory brokenFirst) {} []) := by rw [hstart]; rfl
  obtain ⟨htrack, -, hpoll, hrefused⟩ := (plays_on brokenFirst {} []).2.2.2 p hstart [.poll, .tick]
  have hfails : succeeds (selectTrack (.request "none") (p.run [.poll, .tick])) = false := by
    rw [hp]
    decide +kernel
  cases hselect : selectTrack (.request "none") (p.run [.poll, .tick]) with
  | ok i p' =>
    rw [hselect] at hfails
    cases hfails
  | error cause p' =>
    obtain ⟨name, hchoice, rfl, -⟩ := hrefused _ _ _ hselect
    cases hchoice
    exact ⟨p, p', hstart, htrack, hpoll, hselect⟩

end Player

end VgmPlayback
