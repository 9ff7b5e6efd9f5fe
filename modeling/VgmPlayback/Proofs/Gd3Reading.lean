import Mathlib.Algebra.Ring.Nat
import VgmPlayback.Proofs.HeaderReading
import VgmPlayback.Proofs.PlayingFromMemory
import VgmPlayback.Proofs.ReliableMedia

/-!
# Reading metadata, whatever the bytes

What is read as metadata is a function of the bytes at the announced place (`tell`), on every device that moves bytes
at all and does not fail (`eq_tell_of_readAt`).

* (units) A text table takes the complete units ahead of the cursor, as many as it is told (`TextTable.eq_of_fill`),
  and no more than there are, however many it is told (`TextTable.fill_inImage_eq_min`).
* (table) A text table that has taken units has, at each of its places, what stands between two zeros of them: its
  slot counts the zeros (`TextTable.reverse_kept_foldl_push`).
* (cursor) Whether or not the reading fails, and wherever it has come to, the cursor is where it was if it could be
  put back (`read_seek_cases`).

Together they say what reading the metadata of any bytes in memory gives (`read_tells`).
-/

namespace VgmPlayback

open LittleEndian

private theorem of_bind_eq_ok {ε σ α β : Type} {act : EStateM ε σ α} {next : α → EStateM ε σ β} {s s' : σ} {b : β}
    (h : (act >>= next) s = .ok b s') : ∃ a s₁, act s = .ok a s₁ ∧ next a s₁ = .ok b s' := by
  simp only [bind, EStateM.bind] at h
  split at h
  · rename_i a s₁ heq
    exact ⟨a, s₁, heq, h⟩
  · cases h

namespace Gd3

variable {s s' : Source} {rest : List UInt8}

/-! ### Units -/

/-- The complete units at the beginning of the bytes. -/
def leadingUnits : List UInt8 → List UInt16
  | b₀ :: b₁ :: bytes => word16 b₀ b₁ :: leadingUnits bytes
  | _ => []

theorem length_leadingUnits (bytes : List UInt8) : (leadingUnits bytes).length = bytes.length / 2 := by
  fun_induction leadingUnits bytes with
  | case1 b₀ b₁ bytes ih =>
    simp only [List.length_cons, ih]
    omega
  | case2 bytes hshort =>
    match bytes, hshort with
    | [], _ => rfl
    | [b], _ => exact (Nat.div_eq_of_lt (Nat.lt_succ_self 1)).symm
    | b₀ :: b₁ :: bytes, hshort => exact absurd rfl (hshort b₀ b₁ bytes)

namespace TextTable

/-- The table takes units while there are complete ones. -/
theorem eq_of_fill {n : Nat} {t : TextTable} {r : TextTable × Bool} (h : s.Ahead rest)
    (hfill : t.fill n s = .ok r s') :
    r = (((leadingUnits rest).take n).foldl push t, decide (n ≤ (leadingUnits rest).length)) := by
  induction n generalizing s rest t with
  | zero =>
    cases hfill
    rfl
  | succ n ih =>
    obtain ⟨bytes, s₁, htake, hrest⟩ := of_bind_eq_ok hfill
    obtain ⟨rfl, hahead⟩ := h.of_take htake
    match rest, hahead, hrest with
    | [], _, hrest =>
      cases hrest
      rfl
    | [b], _, hrest =>
      cases hrest
      rfl
    | b₀ :: b₁ :: rest, hahead, hrest =>
      have hahead : s₁.Ahead rest := hahead
      rw [ih hahead hrest]
      simp only [leadingUnits, List.take_succ_cons, List.foldl_cons, List.length_cons, Nat.add_le_add_iff_right]

/-- Behind the last complete unit nothing is asked for any more, however many units are still to come. -/
private theorem fill_inImage_of_lt {image : List UInt8} {j n : Nat} (hn : (image.length - j) / 2 < n) (t : TextTable) :
    t.fill n (.inImage image j) = t.fill ((image.length - j) / 2 + 1) (.inImage image j) := by
  induction n generalizing j t with
  | zero => omega
  | succ n ih =>
    unfold fill
    simp only [bind, EStateM.bind, Source.take_inImage]
    have hlength : (image.drop j).length = image.length - j := List.length_drop
    match hdrop : image.drop j with
    | [] => rfl
    | [b] => rfl
    | b₀ :: b₁ :: bytes =>
      rw [hdrop] at hlength
      simp only [List.length_cons] at hlength
      have hone : (image.length - j) / 2 = (image.length - (j + 2)) / 2 + 1 := by omega
      show fill n _ (.inImage image (j + 2)) = fill ((image.length - j) / 2) _ (.inImage image (j + 2))
      rw [hone]
      exact ih (by omega) _

/-- A table that is told a larger number of units than there are reads what it reads when it is told one more than
there are. -/
theorem fill_inImage_eq_min (image : List UInt8) (j n : Nat) (t : TextTable) :
    t.fill n (.inImage image j) = t.fill (min n ((image.length - j) / 2 + 1)) (.inImage image j) := by
  by_cases hn : (image.length - j) / 2 < n
  · rw [Nat.min_eq_right hn]
    exact fill_inImage_of_lt hn t
  · rw [Nat.min_eq_left (by omega)]

/-! ### Texts -/

private theorem slot_push (t : TextTable) (u : UInt16) :
    (t.push u).slot = if u = 0 then t.slot + 1 else t.slot := by
  unfold push
  split
  · rfl
  · split <;> rfl

theorem slot_foldl_push (units : List UInt16) (t : TextTable) :
    (units.foldl push t).slot = t.slot + units.count 0 := by
  induction units generalizing t with
  | nil => rfl
  | cons u units ih =>
    rw [List.foldl_cons, ih, slot_push, List.count_cons]
    by_cases hu : u = 0
    · simp only [hu, ↓reduceIte, beq_self_eq_true]
      omega
    · simp only [hu, ↓reduceIte, beq_iff_eq, Nat.add_zero]

private theorem reverse_kept_push (t : TextTable) (u : UInt16) {i : Nat} (hi : i < 5) :
    (t.push u).kept[i].reverse = t.kept[i].reverse ++ if u ≠ 0 ∧ t.slot = 2 * i then [u] else [] := by
  unfold push
  by_cases hu : u = 0
  · simp [hu]
  · by_cases hkept : t.slot % 2 = 0 ∧ t.slot ≤ 8
    · rw [if_neg hu, dif_pos hkept]
      by_cases hplace : t.slot / 2 = i
      · have hslot : t.slot = 2 * i := by omega
        simp [hu, hslot]
      · have hslot : t.slot ≠ 2 * i := by omega
        simp [hslot, Vector.getElem_set_ne _ _ hplace]
    · have hslot : t.slot ≠ 2 * i := by omega
      rw [if_neg hu, dif_neg hkept, if_neg (fun h => hslot h.2), List.append_nil]

/-- A unit that is added to the piece after `n` empty ones is added to no other piece. -/
private theorem getD_replicate_append_cons (n j : Nat) (u : UInt16) (piece : List UInt16)
    (pieces : List (List UInt16)) :
    ((List.replicate n [] ++ (u :: piece) :: pieces)[j]?).getD [] =
      (if n = j then [u] else []) ++ ((List.replicate n [] ++ piece :: pieces)[j]?).getD [] := by
  have hlength : (List.replicate n ([] : List UInt16)).length = n := List.length_replicate
  rcases Nat.lt_trichotomy j n with hlt | heq | hgt
  · rw [if_neg (Nat.ne_of_gt hlt), List.getElem?_append_left (by omega), List.getElem?_append_left (by omega)]
    rfl
  · rw [if_pos heq.symm, List.getElem?_append_right (by omega), List.getElem?_append_right (by omega), hlength, heq,
      Nat.sub_self]
    rfl
  · obtain ⟨k, hk⟩ : ∃ k, j - n = k + 1 := ⟨j - n - 1, by omega⟩
    rw [if_neg (Nat.ne_of_lt hgt), List.getElem?_append_right (by omega), List.getElem?_append_right (by omega),
      hlength, hk]
    rfl

/-- What a table gains at its places: of the pieces between the zeros those with an even number, where the slots that
are over count as pieces too. -/
theorem reverse_kept_foldl_push (units : List UInt16) (t : TextTable) {i : Nat} (hi : i < 5) :
    (units.foldl push t).kept[i].reverse =
      t.kept[i].reverse ++ ((List.replicate t.slot [] ++ units.splitOn 0)[2 * i]?).getD [] := by
  induction units generalizing t with
  | nil =>
    have hempty : List.replicate t.slot ([] : List UInt16) ++ [[]] = List.replicate (t.slot + 1) [] :=
      List.replicate_succ'.symm
    rw [List.splitOn_nil, List.foldl_nil, hempty, List.getElem?_replicate]
    split <;> exact (List.append_nil _).symm
  | cons u units ih =>
    rw [List.foldl_cons, ih, reverse_kept_push, slot_push, List.splitOn_cons_eq_if_modifyHead]
    by_cases hu : u = 0
    · -- the unit ends a piece, and so a slot
      rw [if_neg (fun h => h.1 hu), if_pos hu, if_pos (beq_iff_eq.2 hu), List.append_nil, List.replicate_succ',
        List.append_assoc, List.singleton_append]
    · -- the unit comes in front of the first piece
      obtain ⟨piece, pieces, hpieces⟩ := List.exists_cons_of_ne_nil (List.splitOn_ne_nil 0 units)
      rw [if_neg hu, if_neg (mt beq_iff_eq.1 hu), hpieces, List.modifyHead_cons, getD_replicate_append_cons,
        List.append_assoc]
      simp only [ne_eq, hu, not_false_eq_true, true_and]

end TextTable

/-- The text with number `i` of a table with these units: what stands between two zeros of them, or nothing. -/
def textAt (units : List UInt16) (i : Nat) : String :=
  String.ofList (Utf16.decodeLossy ((units.splitOn 0)[i]?.getD []))

theorem TextTable.text_foldl_push (units : List UInt16) (i : Fin 5) :
    (units.foldl push {}).text i = textAt units (2 * i.val) := by
  have hkept : ({} : TextTable).kept[i.val].reverse = [] := by simp
  rw [TextTable.text, Fin.getElem_fin, TextTable.reverse_kept_foldl_push, hkept, List.nil_append, List.replicate_zero,
    List.nil_append]
  rfl

/-! ### Chunks -/

/-- The metadata with these words and the texts of a table with these units.  Of the texts those with an even number
are kept, up to the release date. -/
def ofTable (version length : UInt32) (units : List UInt16) : Gd3 where
  trackName := textAt units 0
  gameName := textAt units 2
  systemName := textAt units 4
  author := textAt units 6
  releaseDate := textAt units 8
  version
  length

/-- The sum of the first four bytes, which are the tag of a chunk. -/
def tagSumOf (chunk : List UInt8) : Nat := ((chunk.take 4).map UInt8.toNat).sum

/-- The units of the table of a chunk: those that are there, as many of them as the chunk declares. -/
def unitsOf (chunk : List UInt8) (length : UInt32) : List UInt16 :=
  (leadingUnits (chunk.drop 12)).take (length.toNat / 2)

/-- What these bytes tell as a chunk, and what there is to report about it when it stands at `pos`. -/
def tell (pos : Nat) (chunk : List UInt8) : Gd3 × List Finding :=
  if chunk.length < 4 ∨ tagSumOf chunk ≠ tagSum then ({}, [.badTag pos (tagSumOf chunk)])
  else match word32At? chunk 4, word32At? chunk 8 with
    | some version, some length =>
      let units := unitsOf chunk length
      (ofTable version length units, if units.length < length.toNat / 2 then [.truncated (units.count 0)] else [])
    | _, _ => ({}, [])

theorem length_unitsOf (chunk : List UInt8) (length : UInt32) :
    (unitsOf chunk length).length = min (length.toNat / 2) ((chunk.length - 12) / 2) := by
  rw [unitsOf, List.length_take, length_leadingUnits, List.length_drop]

/-- There is no chunk to find in these bytes. -/
def Missing (chunk : List UInt8) : Prop := chunk.length < 12 ∨ tagSumOf chunk ≠ tagSum

private theorem word32At?_eq_none_iff {bytes : List UInt8} {off : Nat} :
    word32At? bytes off = none ↔ bytes.length < off + 4 := by
  have hlength : (bytes.drop off).length = bytes.length - off := List.length_drop
  unfold word32At?
  rcases hdrop : bytes.drop off with _ | ⟨b₀, _ | ⟨b₁, _ | ⟨b₂, _ | ⟨b₃, rest⟩⟩⟩⟩ <;>
    rw [hdrop] at hlength <;> simp only [List.length_cons, List.length_nil] at hlength <;> simp <;> omega

theorem tell_of_missing {chunk : List UInt8} (h : Missing chunk) (pos : Nat) : (tell pos chunk).1 = {} := by
  unfold tell
  split
  · rfl
  · rename_i htag
    rw [not_or] at htag
    rcases h with hshort | hsum
    · have hnone : word32At? chunk 8 = none := word32At?_eq_none_iff.2 hshort
      rw [hnone]
      cases word32At? chunk 4 <;> rfl
    · exact absurd hsum htag.2

theorem tell_of_not_missing {chunk : List UInt8} (h : ¬ Missing chunk) (pos : Nat) :
    ∃ version length, word32At? chunk 4 = some version ∧ word32At? chunk 8 = some length ∧
      (tell pos chunk).1 = ofTable version length (unitsOf chunk length) := by
  rw [Missing, not_or, not_lt] at h
  have hversion : word32At? chunk 4 ≠ none := by
    rw [ne_eq, word32At?_eq_none_iff]
    omega
  have hlength : word32At? chunk 8 ≠ none := by
    rw [ne_eq, word32At?_eq_none_iff]
    omega
  obtain ⟨version, hversion⟩ := Option.ne_none_iff_exists'.1 hversion
  obtain ⟨length, hlength⟩ := Option.ne_none_iff_exists'.1 hlength
  refine ⟨version, length, hversion, hlength, ?_⟩
  have htag : ¬ (chunk.length < 4 ∨ tagSumOf chunk ≠ tagSum) := by
    rw [not_or, not_lt]
    exact ⟨by omega, h.2⟩
  rw [tell, if_neg htag, hversion, hlength]

/-! ### Reading chunks -/

private theorem of_takeWord? {r : Option UInt32} (h : s.Ahead rest) (hword : takeWord? s = .ok r s') :
    r = word32At? rest 0 ∧ s'.Ahead (rest.drop 4) := by
  obtain ⟨bytes, s₁, htake, hword⟩ := of_bind_eq_ok hword
  obtain ⟨rfl, hahead⟩ := h.of_take htake
  cases hword
  exact ⟨word32At?_take (Nat.le_refl 4), hahead⟩

private theorem foldl_add_toNat (bytes : List UInt8) (n : Nat) :
    bytes.foldl (fun n b => n + b.toNat) n = n + (bytes.map UInt8.toNat).sum := by
  induction bytes generalizing n with
  | nil => rfl
  | cons b bytes ih => rw [List.foldl_cons, ih, List.map_cons, List.sum_cons, Nat.add_assoc]

/-- What is read at a place, unless the device fails, is what the bytes there tell. -/
theorem eq_tell_of_readAt {pos : Nat} {r : Gd3 × List Finding} (hchunk? : s.medium.chunk? ≠ some 0)
    (hread : readAt pos s = .ok r s') : r = tell pos (s.medium.data.toList.drop pos) := by
  obtain ⟨_, s₀, hseek, hread⟩ := of_bind_eq_ok hread
  have hahead := Source.ahead_of_seek hchunk? hseek
  generalize s.medium.data.toList.drop pos = chunk at hahead ⊢
  obtain ⟨head, s₁, htag, hread⟩ := of_bind_eq_ok hread
  obtain ⟨rfl, hahead⟩ := hahead.of_take htag
  have hsum : (chunk.take 4).foldl (fun n b => n + b.toNat) 0 = tagSumOf chunk := by
    rw [foldl_add_toNat, Nat.zero_add, tagSumOf]
  have hshort : (chunk.take 4).length < 4 ↔ chunk.length < 4 := by
    rw [List.length_take]
    omega
  dsimp only at hread
  rw [hsum] at hread
  unfold tell
  by_cases htag : chunk.length < 4 ∨ tagSumOf chunk ≠ tagSum
  · rw [if_pos htag]
    rw [if_pos (htag.imp_left hshort.2)] at hread
    cases hread
    rfl
  · rw [if_neg htag]
    rw [if_neg (mt (Or.imp_left hshort.1) htag)] at hread
    obtain ⟨version?, s₂, hversion, hread⟩ := of_bind_eq_ok hread
    obtain ⟨rfl, hahead⟩ := of_takeWord? hahead hversion
    have hversion? : word32At? (chunk.drop 4) 0 = word32At? chunk 4 := rfl
    rw [hversion?] at hread
    cases hv : word32At? chunk 4 with
    | none =>
      rw [hv] at hread
      cases hread
      rfl
    | some version =>
      rw [hv] at hread
      obtain ⟨length?, s₃, hlength, hread⟩ := of_bind_eq_ok hread
      obtain ⟨rfl, hahead⟩ := of_takeWord? hahead hlength
      have hlength? : word32At? ((chunk.drop 4).drop 4) 0 = word32At? chunk 8 := by rw [List.drop_drop]; rfl
      rw [hlength?] at hread
      cases hl : word32At? chunk 8 with
      | none =>
        rw [hl] at hread
        cases hread
        rfl
      | some length =>
        rw [hl] at hread
        obtain ⟨filled, s₄, hfill, hread⟩ := of_bind_eq_ok hread
        have hfilled := TextTable.eq_of_fill hahead hfill
        rw [List.drop_drop, List.drop_drop] at hfilled
        subst hfilled
        have hcomplete : length.toNat / 2 ≤ (leadingUnits (chunk.drop 12)).length ↔
            ¬ (unitsOf chunk length).length < length.toNat / 2 := by
          rw [unitsOf, List.length_take]
          omega
        rw [← (EStateM.Result.ok.inj hread).1]
        simp only [TextTable.text_foldl_push, TextTable.slot_foldl_push, Nat.zero_add, decide_eq_true_eq, hcomplete,
          ite_not]
        rfl

/-! ### The cursor -/

/-- The source as reading the announced chunk leaves it, whether or not that fails, with the cursor still where the
reading has come to. -/
def strayed (h : Header) (s : Source) : Source :=
  match h.gd3Start? with
  | none => s
  | some pos =>
    match readAt pos s with
    | .ok _ s' | .error _ s' => s'

/-- The cursor is put back by one move.  If it succeeds, the cursor and the head are where the cursor was before; if
it fails, its failure is the one reported. -/
theorem read_seek_cases (h : Header) (s : Source) :
    match Source.seek s.pos (strayed h s) with
    | .ok _ s' => (read h s).source = s' ∧ s'.pos = s.pos ∧ s'.medium.head = s.pos
    | .error e s' => (read h s).source = s' ∧ (read h s).result = .error e := by
  have hback : ∀ t t', Source.seek s.pos t = .ok () t' → t'.pos = s.pos ∧ t'.medium.head = s.pos := by
    intro t t' hseek
    obtain ⟨faults, rfl⟩ := Source.eq_of_seek hseek
    exact ⟨rfl, rfl⟩
  unfold strayed read
  cases h.gd3Start? with
  | none =>
    dsimp only
    cases hseek : Source.seek s.pos s with
    | ok _ s' => exact ⟨rfl, hback s s' hseek⟩
    | error e s' => exact ⟨rfl, rfl⟩
  | some pos =>
    dsimp only
    cases readAt pos s with
    | ok r s₁ =>
      dsimp only
      cases hseek : Source.seek s.pos s₁ with
      | ok _ s' => exact ⟨rfl, hback s₁ s' hseek⟩
      | error e s' => exact ⟨rfl, rfl⟩
    | error e₁ s₁ =>
      dsimp only
      cases hseek : Source.seek s.pos s₁ with
      | ok _ s' => exact ⟨rfl, hback s₁ s' hseek⟩
      | error e s' => exact ⟨rfl, rfl⟩

/-! ### Bytes in memory -/

/-- The bytes from the place on at which the header announces a chunk. -/
def announced (h : Header) (image : List UInt8) : List UInt8 := image.drop ((h.get .gd3Offset).toNat + 0x14)

theorem read_inImage_of_eq_zero {h : Header} (hzero : h.get .gd3Offset = 0) (image : List UInt8) (k : Nat) :
    read h (.inImage image k) = { result := .ok {}, source := .inImage image k } := by
  simp only [read, Header.gd3Start?, if_pos hzero]
  rfl

theorem read_inImage_of_ne_zero {h : Header} (hne : h.get .gd3Offset ≠ 0) (image : List UInt8) (k : Nat) :
    read h (.inImage image k) = {
      result := .ok (tell ((h.get .gd3Offset).toNat + 0x14) (announced h image)).1
      source := .inImage image k
      findings := (tell ((h.get .gd3Offset).toNat + 0x14) (announced h image)).2 } := by
  have hstart : h.gd3Start? = some ((h.get .gd3Offset).toNat + 0x14) := by
    rw [Header.gd3Start?, if_neg hne]
    rfl
  obtain ⟨r, j, hread⟩ := Source.inherited_succeeds.readAt ((h.get .gd3Offset).toNat + 0x14) image k
  have hr : r = tell ((h.get .gd3Offset).toNat + 0x14) (announced h image) := eq_tell_of_readAt (by rintro ⟨⟩) hread
  simp only [read, hstart, hread, hr]
  rfl

/-- Reading the metadata from any bytes in memory.  Nothing is found if none are announced, if the bytes at the place
are too few for a tag and two words, or if the first four have not the sum of a tag.  Otherwise the two words after the
tag are found, and the texts of the table behind them: of its units those that are there, as many as the length says,
and no more than those are read, whatever the length is.  The cursor is where it was.  On any other device too, it is
there again if it could be put back, and so is the head, whether or not the reading failed. -/
theorem read_tells (h : Header) (image : List UInt8) (k : Nat) (s : Source) :
    (h.get .gd3Offset = 0 ∨ Missing (announced h image) → (read h (.inImage image k)).result = .ok {}) ∧
    (h.get .gd3Offset ≠ 0 → ¬ Missing (announced h image) → ∃ version length,
      word32At? (announced h image) 4 = some version ∧ word32At? (announced h image) 8 = some length ∧
      (read h (.inImage image k)).result = .ok (ofTable version length (unitsOf (announced h image) length)) ∧
      (unitsOf (announced h image) length).length =
        min (length.toNat / 2) (((announced h image).length - 12) / 2)) ∧
    (∀ n t j, TextTable.fill n t (.inImage image j) =
      TextTable.fill (min n ((image.length - j) / 2 + 1)) t (.inImage image j)) ∧
    (read h (.inImage image k)).source = .inImage image k ∧
    match Source.seek s.pos (strayed h s) with
    | .ok _ s' => (read h s).source = s' ∧ s'.pos = s.pos ∧ s'.medium.head = s.pos
    | .error e s' => (read h s).source = s' ∧ (read h s).result = .error e := by
  refine ⟨?_, ?_, fun n t j => TextTable.fill_inImage_eq_min image j n t, ?_, read_seek_cases h s⟩
  · intro hmissing
    by_cases hzero : h.get .gd3Offset = 0
    · rw [read_inImage_of_eq_zero hzero]
    · rw [read_inImage_of_ne_zero hzero, tell_of_missing (hmissing.resolve_left hzero)]
  · intro hne hthere
    obtain ⟨version, length, hversion, hlength, htell⟩ :=
      tell_of_not_missing hthere ((h.get .gd3Offset).toNat + 0x14)
    refine ⟨version, length, hversion, hlength, ?_, length_unitsOf _ _⟩
    rw [read_inImage_of_ne_zero hne, htell]
  · by_cases hzero : h.get .gd3Offset = 0
    · rw [read_inImage_of_eq_zero hzero]
    · rw [read_inImage_of_ne_zero hzero]

/-- The header announces a chunk at 0x20.  Its tag has the right sum in another order, its length is the largest there
is, and the file ends inside a unit of its third text; in the first one stands half of a pair. -/
private def brokenHeader : Header := Header.blank.set .gd3Offset 0x0C

private def brokenChunk : List UInt8 :=
  List.replicate 0x20 0x55 ++ [0x20, 0x33, 0x64, 0x47] ++ [0x00, 0x01, 0x00, 0x00] ++ [0xFF, 0xFF, 0xFF, 0xFF] ++
    [0x41, 0x00, 0x00, 0xD8, 0x00, 0x00, 0x42, 0x00, 0x00, 0x00, 0x43, 0x00, 0x44]

theorem read_tells_cutShort : brokenHeader.get .gd3Offset ≠ 0 ∧ ¬ Missing (announced brokenHeader brokenChunk) ∧
    (read brokenHeader (.inImage brokenChunk 3)).result =
      .ok { trackName := "A\uFFFD", gameName := "C", version := 0x100, length := 0xFFFFFFFF } := by
  have hne : brokenHeader.get .gd3Offset ≠ 0 := by decide
  have hthere : ¬ Missing (announced brokenHeader brokenChunk) := by
    rw [Missing]
    decide
  obtain ⟨version, length, hversion, hlength, hresult, -⟩ :=
    (read_tells brokenHeader brokenChunk 3 (.inImage brokenChunk 3)).2.1 hne hthere
  have hversion' : word32At? (announced brokenHeader brokenChunk) 4 = some 0x100 := by decide +kernel
  have hlength' : word32At? (announced brokenHeader brokenChunk) 8 = some 0xFFFFFFFF := by decide +kernel
  rw [hversion'] at hversion
  rw [hlength'] at hlength
  cases hversion
  cases hlength
  refine ⟨hne, hthere, hresult.trans (congrArg Except.ok ?_)⟩
  decide +kernel

end Gd3

end VgmPlayback
