import Mathlib.Algebra.Ring.Nat
import Mathlib.Data.List.DropRight
import VgmPlayback.Format.Draft
import VgmPlayback.Proofs.HeaderReading
import VgmPlayback.Proofs.HeaderRoundTrip

/-!
# The files that drafts make

What the edits of a draft amount to can be told from the edits alone: of those that set the same thing the last one
counts (`Edit.asked`, `Edit.lastGd3?`), and the loop point is behind the bytes of the edits up to the last loop mark
(`Draft.upToMark`).

The file of a draft whose positions fit in a word reads back in these terms: its header has what was asked for, as
far as there is room for it, and the positions that follow from the edits (`Draft.reads_as_asked`).  It leads to the
two stretches that matter: the bytes of all edits, and those of the edits since the last loop mark
(`Draft.afterMark`), both before the end marker (`Draft.decode_image`).
-/

namespace VgmPlayback

/-! ### Edits -/

namespace Edit

/-- The value that the edit gives a field. -/
def value? (f : Field) : Edit → Option UInt32
  | .field f' w => if f' = f then some w else none
  | _ => none

/-- The metadata that the edit sets. -/
def gd3? : Edit → Option Gd3
  | .metadata g => some g
  | _ => none

/-- The value that a field has after the edits of a header: the last one that they give it, or else the first one. -/
def asked (initial : Header) (edits : List Edit) (f : Field) : UInt32 :=
  ((edits.filterMap (value? f)).getLast?).getD (initial.get f)

/-- The metadata after the edits. -/
def lastGd3? (edits : List Edit) : Option Gd3 := (edits.filterMap gd3?).getLast?

private theorem getLast?_filterMap_concat {α : Type} (g : Edit → Option α) (edits : List Edit) (e : Edit) :
    ((edits ++ [e]).filterMap g).getLast? = (g e).or (edits.filterMap g).getLast? := by
  rw [List.filterMap_append, List.getLast?_append]
  cases he : g e <;> simp [he]

end Edit

/-! ### Drafts -/

namespace Draft

/-- The draft that a row of edits makes, beginning with a header. -/
def ofHeader (initial : Header) (edits : List Edit) : Draft := edits.foldl apply { header := initial }

/-- The edits up to the last loop mark, none of them if there is none. -/
def upToMark (edits : List Edit) : List Edit := edits.rdropWhile (· ≠ .markLoop)

/-- The edits since the last loop mark, all of them if there is none. -/
def afterMark (edits : List Edit) : List Edit := edits.rtakeWhile (· ≠ .markLoop)

variable (initial : Header) (edits : List Edit)

private theorem ofHeader_concat (e : Edit) : ofHeader initial (edits ++ [e]) = (ofHeader initial edits).apply e := by
  rw [ofHeader, List.foldl_append]
  rfl

private theorem toList_commands_ofHeader :
    (ofHeader initial edits).commands.toList = edits.flatMap Edit.bytes := by
  induction edits using List.reverseRecOn with
  | nil => rfl
  | append_singleton edits e ih =>
    rw [ofHeader_concat, toList_commands_apply, ih, List.flatMap_append, List.flatMap_singleton]

private theorem samples_ofHeader : (ofHeader initial edits).samples = (edits.map Edit.samples).sum := by
  induction edits using List.reverseRecOn with
  | nil => rfl
  | append_singleton edits e ih =>
    rw [ofHeader_concat, samples_apply, ih, List.map_append, List.sum_append, List.map_singleton, List.sum_singleton]

private theorem get_header_ofHeader (f : Field) :
    (ofHeader initial edits).header.get f = Edit.asked initial edits f := by
  induction edits using List.reverseRecOn with
  | nil => rfl
  | append_singleton edits e ih =>
    rw [ofHeader_concat, Edit.asked, Edit.getLast?_filterMap_concat]
    cases e with
    | field f' w =>
      by_cases hf : f' = f
      · subst hf
        simp [apply, Edit.value?]
      · simp only [apply, Edit.value?, if_neg hf, Option.none_or]
        exact (Header.get_set_of_ne _ hf w).trans ih
    | _ => exact ih

private theorem gd3?_ofHeader : (ofHeader initial edits).gd3? = Edit.lastGd3? edits := by
  induction edits using List.reverseRecOn with
  | nil => rfl
  | append_singleton edits e ih =>
    rw [ofHeader_concat, Edit.lastGd3?, Edit.getLast?_filterMap_concat]
    cases e with
    | metadata g => rfl
    | _ => exact ih

private theorem loopIndex?_apply (d : Draft) {e : Edit} (he : e ≠ .markLoop) :
    (d.apply e).loopIndex? = d.loopIndex? := by
  cases e with
  | markLoop => exact absurd rfl he
  | _ => rfl

/-- The loop point is behind the bytes of the edits up to the last mark. -/
private theorem loopIndex?_ofHeader :
    (ofHeader initial edits).loopIndex?.getD 0 = ((upToMark edits).flatMap Edit.bytes).length := by
  induction edits using List.reverseRecOn with
  | nil => rfl
  | append_singleton edits e ih =>
    rw [ofHeader_concat, upToMark, List.rdropWhile_concat]
    by_cases he : e = .markLoop
    · subst he
      have hindex : ((ofHeader initial edits).apply .markLoop).loopIndex?.getD 0 =
          (ofHeader initial edits).commands.toList.length := Array.length_toList.symm
      rw [hindex, toList_commands_ofHeader, if_neg (by simp)]
      simp [Edit.bytes]
    · rw [loopIndex?_apply _ he, if_pos (by simpa using he), ih]
      rfl

private theorem flatMap_bytes_eq_append :
    edits.flatMap Edit.bytes = (upToMark edits).flatMap Edit.bytes ++ (afterMark edits).flatMap Edit.bytes := by
  rw [← List.flatMap_append, upToMark, afterMark, List.rdropWhile_append_rtakeWhile]

/-! ### Finished headers -/

/-- The fields that follow from the edits as a whole. -/
def derivedFields : List Field := [.dataOffset, .loopOffset, .totalSamples, .eofOffset, .gd3Offset]

variable (d : Draft)

private theorem dataOffset_eq :
    d.finishedHeader.get .dataOffset = max (d.header.get .dataOffset) (UInt32.ofNat minHeaderSize) := by
  simp [finishedHeader, Header.get_set_of_ne]

private theorem dataStart_eq :
    d.finishedHeader.dataStart = max (d.header.get .dataOffset).toNat minHeaderSize := by
  rw [Header.dataStart, dataOffset_eq]
  show (if d.header.get .dataOffset ≤ 0x40 then 0x40 else d.header.get .dataOffset).toNat = _
  split
  · rename_i hle
    rw [UInt32.le_iff_toNat_le] at hle
    exact (Nat.max_eq_right hle).symm
  · rename_i hlt
    rw [UInt32.not_le, UInt32.lt_iff_toNat_lt] at hlt
    exact (Nat.max_eq_left (Nat.le_of_lt hlt)).symm

private theorem minHeaderSize_le_dataStart : minHeaderSize ≤ d.finishedHeader.dataStart := by
  rw [dataStart_eq]
  exact Nat.le_max_right _ _

private theorem totalSamples_eq : (d.finishedHeader.get .totalSamples).toNat = min d.samples 0xFFFFFFFF := by
  have htotal : d.finishedHeader.get .totalSamples = UInt32.ofNat (min d.samples 0xFFFFFFFF) := by
    simp [finishedHeader, Header.get_set_of_ne]
  rw [htotal, UInt32.toNat_ofNat']
  omega

private theorem get_finishedHeader {f : Field} (hf : f ∉ derivedFields) :
    d.finishedHeader.get f = d.header.get f := by
  simp only [derivedFields, List.mem_cons, List.not_mem_nil, or_false, not_or] at hf
  obtain ⟨hdata, hloop, htotal, heof, hgd3⟩ := hf
  simp only [finishedHeader, Header.get_set_of_ne _ (Ne.symm hdata), Header.get_set_of_ne _ (Ne.symm hloop),
    Header.get_set_of_ne _ (Ne.symm htotal), Header.get_set_of_ne _ (Ne.symm heof),
    Header.get_set_of_ne _ (Ne.symm hgd3)]

/-! ### Files -/

private theorem image_eq : d.image = d.finishedHeader.encode ++ (d.commands.toList ++ 0x66 :: d.chunk) := by
  simp only [image, List.append_assoc, List.cons_append, List.nil_append]

private theorem length_encode_finishedHeader : d.finishedHeader.encode.length = d.finishedHeader.dataStart :=
  (Header.length_encode _).trans (Nat.max_eq_left d.minHeaderSize_le_dataStart)

private theorem length_image :
    d.image.length = d.finishedHeader.dataStart + (d.commands.toList.length + (d.chunk.length + 1)) := by
  rw [image_eq, List.length_append, List.length_append, List.length_cons, length_encode_finishedHeader]

private theorem decode_image_eq : Header.decode d.image = .ok d.finishedHeader.readBack := by
  rw [image_eq]
  exact Header.decode_encode_append (Nat.le_trans (by decide) d.minHeaderSize_le_dataStart) _

/-- Only a draft without metadata has no chunk. -/
private theorem isEmpty_chunk : d.chunk.isEmpty = d.gd3?.isNone := by
  unfold chunk
  cases d.gd3? with
  | none => rfl
  | some g => exact List.isEmpty_eq_false_iff.2 g.encode_ne_nil

private theorem drop_dataStart : d.image.drop d.finishedHeader.dataStart = d.commands.toList ++ 0x66 :: d.chunk := by
  rw [← length_encode_finishedHeader, image_eq, List.drop_left]

/-- The loop point is among the commands, and every position of the file is a word. -/
private structure Fits (d : Draft) : Prop where
  index_le : d.loopIndex?.getD 0 ≤ d.commands.toList.length
  length_lt : d.image.length < UInt32.size

namespace Fits

variable {d : Draft} {f : Field}

private theorem loopStart_eq (h : d.Fits) :
    d.finishedHeader.loopStart = d.finishedHeader.dataStart + d.loopIndex?.getD 0 := by
  have hindex := h.index_le
  have hsize := h.length_lt
  have hlength := d.length_image
  have hloop : d.finishedHeader.get .loopOffset =
      d.finishedHeader.get .dataOffset + UInt32.ofNat (d.loopIndex?.getD 0) := by
    simp [finishedHeader, Header.get_set_of_ne]
  rw [Header.loopStart, hloop, UInt32.toNat_add, UInt32.toNat_ofNat']
  rw [Header.dataStart] at hlength ⊢
  simp only [UInt32.size] at hsize
  omega

private theorem eofOffset_eq (h : d.Fits) : (d.finishedHeader.get .eofOffset).toNat = d.image.length - 4 := by
  have hdata := d.minHeaderSize_le_dataStart
  have hsize := h.length_lt
  have hlength := d.length_image
  have hcommands : d.commands.toList.length = d.commands.size := Array.length_toList
  have heof : d.finishedHeader.get .eofOffset =
      UInt32.ofNat (d.finishedHeader.dataStart + d.commands.size + 1 + d.chunk.length - 4) := by
    rw [Header.dataStart, dataOffset_eq]
    exact Header.get_set_self _ _ _
  rw [heof, UInt32.toNat_ofNat']
  simp only [UInt32.size, minHeaderSize] at hsize hdata
  omega

/-- The metadata stand behind the end marker. -/
private theorem gd3Start?_eq (h : d.Fits) :
    d.finishedHeader.gd3Start? = d.gd3?.map fun _ => d.finishedHeader.dataStart + d.commands.toList.length + 1 := by
  have hdata := d.minHeaderSize_le_dataStart
  have hsize := h.length_lt
  have hlength := d.length_image
  have hcommands : d.commands.toList.length = d.commands.size := Array.length_toList
  have hoffset : Field.gd3Offset.offset = 0x14 := rfl
  have hgd3 : d.finishedHeader.get .gd3Offset =
      if d.chunk.isEmpty then 0 else UInt32.ofNat (d.finishedHeader.dataStart + d.commands.size + 1 - 0x14) := by
    rw [Header.dataStart, dataOffset_eq]
    exact (Header.get_set_of_ne _ (by decide) _).trans (Header.get_set_self _ _ _)
  rw [Header.gd3Start?, hgd3, isEmpty_chunk]
  cases d.gd3? with
  | none => rfl
  | some g =>
    have hrelative : (UInt32.ofNat (d.finishedHeader.dataStart + d.commands.size + 1 - 0x14)).toNat =
        d.finishedHeader.dataStart + d.commands.size + 1 - 0x14 := UInt32.toNat_ofNat_of_lt' (by omega)
    unfold minHeaderSize at hdata
    rw [Option.isNone_some, if_neg Bool.false_ne_true, if_neg, hrelative, hoffset, Option.map_some, Option.some.injEq]
    · omega
    · rw [← UInt32.toNat_inj, hrelative]
      show ¬ d.finishedHeader.dataStart + d.commands.size + 1 - 0x14 = 0
      omega

/-- The loop does not start in front of the data, so no loop offset is lost. -/
private theorem get_readBack (h : d.Fits)
    (hpresent : f.present (d.finishedHeader.get .version) d.finishedHeader.dataStart = true) :
    d.finishedHeader.readBack.get f = d.finishedHeader.get f := by
  have hdata := d.minHeaderSize_le_dataStart
  have hloop := h.loopStart_eq
  refine Header.get_readBack_of_present hpresent (.inr ?_)
  unfold minHeaderSize at hdata
  omega

private theorem get_readBack_of_offset_le (h : d.Fits) (hf : f.offset ≤ 0x34) :
    d.finishedHeader.readBack.get f = d.finishedHeader.get f :=
  h.get_readBack (Field.present_of_offset_le hf _ _)

private theorem dataStart_readBack (h : d.Fits) : d.finishedHeader.readBack.dataStart = d.finishedHeader.dataStart :=
  congrArg UInt32.toNat (h.get_readBack_of_offset_le (f := .dataOffset) (by decide))

private theorem loopStart_readBack (h : d.Fits) :
    d.finishedHeader.readBack.loopStart = d.finishedHeader.dataStart + d.loopIndex?.getD 0 := by
  rw [← h.loopStart_eq]
  exact congrArg UInt32.toNat (h.get_readBack_of_offset_le (f := .loopOffset) (by decide))

private theorem gd3Start?_readBack (h : d.Fits) :
    d.finishedHeader.readBack.gd3Start? = d.finishedHeader.gd3Start? := by
  unfold Header.gd3Start?
  rw [h.get_readBack_of_offset_le (f := .gd3Offset) (by decide)]

/-- The fields that do not follow from the edits as a whole are read back where there is room for them. -/
private theorem get_readBack_of_not_derived (h : d.Fits) (hf : f ∉ derivedFields) :
    d.finishedHeader.readBack.get f =
      if d.finishedHeader.dataStart < f.offset + 4 ∨ 0x80 ≤ f.offset ∧ d.header.get .version ≤ 0x151 then 0
      else d.header.get f := by
  have hdata := d.minHeaderSize_le_dataStart
  have hversion := d.get_finishedHeader (f := .version) (by decide)
  have habsent := @Field.present_eq_false_iff f (d.finishedHeader.get .version) d.finishedHeader.dataStart
  rw [hversion] at habsent
  unfold minHeaderSize at hdata
  by_cases hmissing : d.finishedHeader.dataStart < f.offset + 4 ∨ 0x80 ≤ f.offset ∧ d.header.get .version ≤ 0x151
  · rw [if_pos hmissing, Header.readBack, Header.get_ofFields, hversion, habsent.2 (hmissing.imp_left ?_)]
    · rfl
    · intro hroom
      omega
  · rw [if_neg hmissing, h.get_readBack, d.get_finishedHeader hf]
    rw [hversion, ← Bool.not_eq_false, habsent]
    exact fun hthere => hmissing (hthere.imp_left And.right)

end Fits

variable {initial edits}

private theorem ofHeader_fits (hsize : (ofHeader initial edits).image.length < UInt32.size) :
    (ofHeader initial edits).Fits := by
  have hparts := congrArg List.length (flatMap_bytes_eq_append edits)
  refine ⟨?_, hsize⟩
  rw [List.length_append] at hparts
  rw [loopIndex?_ofHeader, toList_commands_ofHeader]
  omega

/-- The header of the file leads to the bytes of the edits, and at the loop point to those since the last mark. -/
theorem decode_image (hsize : (ofEdits edits).image.length < UInt32.size) :
    ∃ h, Header.decode (ofEdits edits).image = .ok h ∧ h.dataStart ≤ (ofEdits edits).image.length ∧
      (ofEdits edits).image.drop h.dataStart = edits.flatMap Edit.bytes ++ 0x66 :: (ofEdits edits).chunk ∧
      (ofEdits edits).image.drop h.loopStart =
        (afterMark edits).flatMap Edit.bytes ++ 0x66 :: (ofEdits edits).chunk ∧
      (h.get .totalSamples).toNat = min (edits.map Edit.samples).sum 0xFFFFFFFF := by
  have hof : ofEdits edits = ofHeader .blank edits := rfl
  rw [hof] at hsize ⊢
  have hfits := ofHeader_fits hsize
  have hstart := drop_dataStart (ofHeader .blank edits)
  rw [toList_commands_ofHeader] at hstart
  refine ⟨_, decode_image_eq _, ?_, ?_, ?_, ?_⟩
  · rw [hfits.dataStart_readBack, length_image]
    exact Nat.le_add_right _ _
  · rw [hfits.dataStart_readBack, hstart]
  · rw [hfits.loopStart_readBack, ← List.drop_drop, hstart, loopIndex?_ofHeader, flatMap_bytes_eq_append edits,
      List.append_assoc, List.drop_left]
  · rw [hfits.get_readBack_of_offset_le (by decide), totalSamples_eq, samples_ofHeader]

/-- What was asked for is what the finished file says: the header fields for which there is room, the positions and
the length that follow from the edits, and behind the header the bytes of the edits, the end marker and the chunk. -/
theorem reads_as_asked (initial : Header) (edits : List Edit)
    (hsize : (ofHeader initial edits).image.length < UInt32.size) :
    ∃ h, Header.read (.ofBytes (ofHeader initial edits).image) =
        .ok h (.inImage (ofHeader initial edits).image (min headerImageSize (ofHeader initial edits).image.length)) ∧
      h.dataStart = max (Edit.asked initial edits .dataOffset).toNat minHeaderSize ∧
      h.loopStart = h.dataStart + ((upToMark edits).flatMap Edit.bytes).length ∧
      (h.get .totalSamples).toNat = min (edits.map Edit.samples).sum 0xFFFFFFFF ∧
      (h.get .eofOffset).toNat = (ofHeader initial edits).image.length - 4 ∧
      h.gd3Start? = (Edit.lastGd3? edits).map (fun _ => h.dataStart + (edits.flatMap Edit.bytes).length + 1) ∧
      (∀ f, f ∉ derivedFields → h.get f =
        if h.dataStart < f.offset + 4 ∨ 0x80 ≤ f.offset ∧ Edit.asked initial edits .version ≤ 0x151 then 0
        else Edit.asked initial edits f) ∧
      (ofHeader initial edits).image.drop h.dataStart =
        edits.flatMap Edit.bytes ++ 0x66 :: ((Edit.lastGd3? edits).map Gd3.encode).getD [] := by
  have hfits := ofHeader_fits hsize
  refine ⟨_, Header.read_inImage_eq_ok (decode_image_eq _) ?_ 0, ?_, ?_, ?_, ?_, ?_, ?_, ?_⟩
  · rw [hfits.dataStart_readBack, length_image]
    exact Nat.le_add_right _ _
  · rw [hfits.dataStart_readBack, dataStart_eq, get_header_ofHeader]
  · rw [hfits.loopStart_readBack, hfits.dataStart_readBack, loopIndex?_ofHeader]
  · rw [hfits.get_readBack_of_offset_le (by decide), totalSamples_eq, samples_ofHeader]
  · rw [hfits.get_readBack_of_offset_le (by decide), hfits.eofOffset_eq]
  · rw [hfits.gd3Start?_readBack, hfits.gd3Start?_eq, hfits.dataStart_readBack, gd3?_ofHeader,
      toList_commands_ofHeader]
  · intro f hf
    rw [hfits.get_readBack_of_not_derived hf, hfits.dataStart_readBack, get_header_ofHeader, get_header_ofHeader]
  · rw [hfits.dataStart_readBack, drop_dataStart, toList_commands_ofHeader, chunk, gd3?_ofHeader]

/-- Too small a data start, and fields for which there is no room. -/
private def crammed : Header := .ofFields fun
  | .version => 0x150
  | .dataOffset => 0x10
  | .loopOffset => 3
  | .segaPcmInterface => 7
  | .rf5c68Clock => 9
  | _ => 0

private def crammedEdits : List Edit :=
  [.raw [0x66], .metadata { trackName := "One" }, .markLoop, .wait 0x0102, .field .ym2151Clock 1, .metadata {},
    .field .ym2151Clock 3579545]

theorem reads_as_asked_crammed : (ofHeader crammed crammedEdits).image.length < UInt32.size ∧
    ∃ h s, Header.read (.ofBytes (ofHeader crammed crammedEdits).image) = .ok h s ∧
      h.dataStart = 0x40 ∧ h.loopStart = 0x41 ∧ (h.get .totalSamples).toNat = 0x0102 ∧ h.gd3Start? = some 0x45 ∧
      h.get .ym2151Clock = 3579545 ∧ h.get .segaPcmInterface = 7 ∧ h.get .rf5c68Clock = 0 ∧
      (ofHeader crammed crammedEdits).image.drop 0x40 =
        [0x66, 0x61, 0x02, 0x01, 0x66, 0x47, 0x64, 0x33, 0x20, 0, 0, 0, 0, 0x16, 0, 0, 0] ++ List.replicate 0x16 0 := by
  have hsize : (ofHeader crammed crammedEdits).image.length < UInt32.size := by decide +kernel
  obtain ⟨h, hread, hdata, hloop, htotal, -, hgd3, hfields, hbytes⟩ := reads_as_asked crammed crammedEdits hsize
  have hstart : h.dataStart = 0x40 := hdata
  refine ⟨hsize, h, _, hread, hstart, ?_, htotal, ?_, ?_, ?_, ?_, ?_⟩
  · rw [hloop, hstart]
    rfl
  · rw [hgd3, hstart]
    rfl
  · rw [hfields _ (by decide), hstart]
    decide
  · rw [hfields _ (by decide), hstart]
    decide
  · rw [hfields _ (by decide), hstart]
    decide
  · rw [← hstart, hbytes]
    decide +kernel

end Draft

end VgmPlayback
