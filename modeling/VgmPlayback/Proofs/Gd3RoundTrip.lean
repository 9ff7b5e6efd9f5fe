import Mathlib.Algebra.Ring.Nat
import VgmPlayback.Proofs.Gd3Reading

/-!
# Metadata written and read back

* (units) The units of the texts are the units of the table (`leadingUnits_append`).
* (texts) Units of texts without the character NUL have zeros only where a text ends, so each text of the table is the
  one that was written (`textAt_tableUnits`).
* (round trip) So a chunk of such texts is read back wherever it stands in a file (`read_encode`).
-/

namespace VgmPlayback

open LittleEndian

namespace Gd3

variable {s s' : Source}

theorem leadingUnits_append (units : List UInt16) (rest : List UInt8) :
    leadingUnits (units.flatMap bytes16 ++ rest) = units ++ leadingUnits rest := by
  induction units with
  | nil => rfl
  | cons u units ih =>
    rw [List.flatMap_cons, List.append_assoc, List.cons_append, ← ih]
    exact congrArg (· :: _) (word16_bytes16 u)

/-! ### Chunks -/

private theorem splitOn_flatMap_concat {pieces : List (List UInt16)} (hpieces : ∀ piece ∈ pieces, 0 ∉ piece) :
    (pieces.flatMap fun piece => piece ++ [0]).splitOn 0 = pieces ++ [[]] := by
  induction pieces with
  | nil => rfl
  | cons piece pieces ih =>
    have hpiece := hpieces piece List.mem_cons_self
    rw [List.flatMap_cons, List.append_assoc, List.singleton_append,
      List.splitOn_append_cons_self_of_not_mem hpiece, ih fun p hp => hpieces p (List.mem_cons_of_mem piece hp)]
    rfl

private theorem length_flatMap_bytes16 (units : List UInt16) : (units.flatMap bytes16).length = 2 * units.length := by
  induction units with
  | nil => rfl
  | cons u units ih =>
    rw [List.flatMap_cons, List.length_append, ih, length_bytes16, List.length_cons]
    omega

variable {g : Gd3}

private theorem length_tableUnits (g : Gd3) :
    g.tableUnits.length = (g.texts.map fun text => (Utf16.encode text.toList).length).sum + 11 := by
  have hempty : (Utf16.encode "".toList).length = 0 := rfl
  simp only [tableUnits, slots, texts, List.length_flatMap, List.map_cons, List.map_nil, List.sum_cons, List.sum_nil,
    List.length_append, List.length_singleton, hempty]
  omega

private theorem notMem_of_mem_slots (hg : ∀ text ∈ g.texts, '\x00' ∉ text.toList) :
    ∀ text ∈ g.slots, '\x00' ∉ text.toList := by
  simp only [texts, slots, List.forall_mem_cons, List.not_mem_nil, false_implies, implies_true, and_true] at hg ⊢
  obtain ⟨htrack, hgame, hsystem, hauthor, hdate⟩ := hg
  exact ⟨htrack, nofun, hgame, nofun, hsystem, nofun, hauthor, nofun, hdate, nofun, nofun⟩

theorem textAt_tableUnits (hslots : ∀ text ∈ g.slots, '\x00' ∉ text.toList) {i : Nat} (hi : i < 11) :
    textAt g.tableUnits i = (g.slots[i]?).getD "" := by
  have hpieces : g.tableUnits.splitOn 0 = g.slots.map (fun text => Utf16.encode text.toList) ++ [[]] := by
    rw [← splitOn_flatMap_concat, List.flatMap_map]
    · rfl
    · intro piece hpiece
      obtain ⟨text, hmem, rfl⟩ := List.mem_map.1 hpiece
      exact Utf16.zero_notMem_encode (hslots text hmem)
  have hlength : (g.slots.map fun text => Utf16.encode text.toList).length = 11 := rfl
  rw [textAt, hpieces, List.getElem?_append_left (by omega), List.getElem?_map]
  cases g.slots[i]? with
  | none => rfl
  | some text => exact (congrArg String.ofList (Utf16.decodeLossy_encode text.toList)).trans String.ofList_toList

/-- The bytes of a chunk tell what was put into them. -/
private theorem tell_encode_append (hg : ∀ text ∈ g.texts, '\x00' ∉ text.toList)
    (hsize : (g.tableUnits.flatMap bytes16).length < UInt32.size) (pos : Nat) (after : List UInt8) :
    tell pos (g.encode ++ after) =
      ({ g with length := UInt32.ofNat (g.tableUnits.flatMap bytes16).length }, []) := by
  have hencode : g.encode ++ after = tag ++ (bytes32 g.version ++
      (bytes32 (UInt32.ofNat (g.tableUnits.flatMap bytes16).length) ++ (g.tableUnits.flatMap bytes16 ++ after))) := by
    simp only [encode, List.append_assoc]
  have hnumber : (UInt32.ofNat (g.tableUnits.flatMap bytes16).length).toNat / 2 = g.tableUnits.length := by
    rw [UInt32.toNat_ofNat_of_lt' hsize, length_flatMap_bytes16]
    omega
  have htag : ¬ ((g.encode ++ after).length < 4 ∨ tagSumOf (g.encode ++ after) ≠ tagSum) := by
    rw [hencode, not_or, not_lt]
    exact ⟨Nat.le_add_left 4 _, not_not.2 rfl⟩
  have hversion : word32At? (g.encode ++ after) 4 = some g.version := by
    rw [hencode]
    exact word32At?_append tag g.version _
  have hlength : word32At? (g.encode ++ after) 8 =
      some (UInt32.ofNat (g.tableUnits.flatMap bytes16).length) := by
    rw [hencode, ← List.append_assoc]
    exact word32At?_append (tag ++ bytes32 g.version) _ _
  have hunits : unitsOf (g.encode ++ after) (UInt32.ofNat (g.tableUnits.flatMap bytes16).length) = g.tableUnits := by
    have hdrop : (g.encode ++ after).drop 12 = g.tableUnits.flatMap bytes16 ++ after := by rw [hencode]; rfl
    rw [unitsOf, hdrop, hnumber, leadingUnits_append, List.take_left]
  rw [tell, if_neg htag, hversion, hlength]
  simp only [hunits, hnumber, Nat.lt_irrefl, ↓reduceIte]
  have hslots := notMem_of_mem_slots hg
  rw [ofTable, textAt_tableUnits hslots (by omega), textAt_tableUnits hslots (by omega),
    textAt_tableUnits hslots (by omega), textAt_tableUnits hslots (by omega), textAt_tableUnits hslots (by omega)]
  rfl

/-- What is found is what was read at the announced place, if the cursor could be put back; a reliable medium sees to
both. -/
private theorem read_cases {h : Header} {pos : Nat} (hstart : h.gd3Start? = some pos) :
    (¬ s.medium.Reliable ∧ ∃ e, (read h s).result = .error e) ∨
    ∃ r s₁ s₂, readAt pos s = .ok r s₁ ∧ Source.seek s.pos s₁ = .ok () s₂ ∧
      read h s = { result := .ok r.1, source := s₂, findings := r.2 } := by
  have hreliable := Source.inherited_reliable.readAt pos s
  cases hread : readAt pos s with
  | error e s₁ =>
    left
    refine ⟨fun hs => ?_, ?_⟩
    · obtain ⟨r, s', heq, -⟩ := hreliable hs
      rw [hread] at heq
      cases heq
    · cases hback : Source.seek s.pos s₁ <;> exact ⟨_, by simp only [read, hstart, hread, hback]; rfl⟩
  | ok r s₁ =>
    cases hback : Source.seek s.pos s₁ with
    | error e s₂ =>
      left
      refine ⟨fun hs => ?_, e, by simp only [read, hstart, hread, hback]⟩
      obtain ⟨r', s', heq, hs'⟩ := hreliable hs
      rw [hread] at heq
      cases heq
      obtain ⟨_, s', heq, -⟩ := Source.inherited_reliable.seek s.pos s₁ hs'
      rw [hback] at heq
      cases heq
    | ok _ s₂ => exact .inr ⟨r, s₁, s₂, rfl, hback, by simp only [read, hstart, hread, hback]⟩

/-- Unless the device fails, texts without the character NUL are read back from their chunk, wherever it stands in
a file and the cursor is before; the length is that of the text table, and the cursor is where it was.  The device
moves some bytes in each transfer, however few: one that moves none has no bytes to find. -/
theorem read_encode (hg : ∀ text ∈ g.texts, '\x00' ∉ text.toList)
    (hsize : (g.tableUnits.flatMap bytes16).length < UInt32.size) (hchunk? : s.medium.chunk? ≠ some 0) {p : Nat}
    (hchunk : g.encode <+: s.medium.data.toList.drop p) (hlow : 0 < p - 0x14) (hhigh : p - 0x14 < UInt32.size)
    {h : Header} (hoffset : h.get .gd3Offset = UInt32.ofNat (p - 0x14)) :
    (¬ s.medium.Reliable ∧ ∃ e, (read h s).result = .error e) ∨
    ∃ length : UInt32, (read h s).result = .ok { g with length } ∧
      length.toNat = 2 * ((g.texts.map fun text => (Utf16.encode text.toList).length).sum + 11) ∧
      (read h s).findings = [] ∧ (read h s).source.pos = s.pos ∧ (read h s).source.medium.head = s.pos := by
  have hstart : h.gd3Start? = some p := by
    have hoffsetNat := congrArg UInt32.toNat hoffset
    rw [UInt32.toNat_ofNat_of_lt' hhigh] at hoffsetNat
    have hne : h.get .gd3Offset ≠ 0 := by
      intro hzero
      rw [hzero, UInt32.toNat_zero] at hoffsetNat
      omega
    have hfield : Field.gd3Offset.offset = 0x14 := rfl
    rw [Header.gd3Start?, if_neg hne, hoffsetNat, hfield, Option.some.injEq]
    omega
  rcases read_cases hstart with hfails | ⟨r, s₁, s₂, hread, hback, heq⟩
  · exact .inl hfails
  · obtain ⟨after, hafter⟩ := hchunk
    have hr := eq_tell_of_readAt hchunk? hread
    rw [← hafter, tell_encode_append hg hsize] at hr
    obtain ⟨faults, hs₂⟩ := Source.eq_of_seek hback
    right
    rw [heq, hr, hs₂]
    refine ⟨UInt32.ofNat (g.tableUnits.flatMap bytes16).length, rfl, ?_, rfl, rfl, rfl⟩
    rw [UInt32.toNat_ofNat_of_lt' hsize, length_flatMap_bytes16, length_tableUnits]

/-- Characters of one unit and of two, and three empty texts. -/
private def clefs : Gd3 := { trackName := "𝄞 é", author := "\uFFFD𝄢", version := 0x100, length := 7 }

/-- A device that moves one byte at a time and is interrupted, with its head and the cursor in different places. -/
private def clefSource : Source where
  medium := {
    data := (List.replicate 0x20 0x55 ++ clefs.encode ++ [0x66]).toArray
    chunk? := some 1
    readFaults := [{ pos := 0x22, kind := .interrupted, times := 2, after := 0 }]
    head := 9 }
  size := 0
  pos := 5

theorem read_encode_clefs : clefSource.medium.Reliable ∧ ∃ length : UInt32,
    (read (Header.blank.set .gd3Offset 0x0C) clefSource).result = .ok { clefs with length } ∧ length.toNat = 36 ∧
    (read (Header.blank.set .gd3Offset 0x0C) clefSource).source.pos = 5 := by
  have hs : clefSource.medium.Reliable := ⟨rfl, nofun, by simp [clefSource]⟩
  rcases read_encode (g := clefs) (s := clefSource) (p := 0x20) (h := Header.blank.set .gd3Offset 0x0C)
    (by decide +kernel) (by decide +kernel) hs.chunk?_ne (by decide +kernel) (by decide) (by decide) (by decide) with
    ⟨hfails, -⟩ | ⟨length, hresult, hlength, -, hpos, -⟩
  · exact absurd hs hfails
  · exact ⟨hs, length, hresult, hlength.trans (by decide +kernel), hpos⟩

end Gd3

end VgmPlayback
