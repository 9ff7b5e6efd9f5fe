import VgmPlayback.Proofs.HeaderReading
import VgmPlayback.Proofs.HeaderRoundTrip

/-!
# What reading a header comes to

* (window) A header depends on the bytes in front of `Header.fieldsEnd` only.  This is never behind the data start,
  unless the data start within the first words, so command bytes are not taken for header data
  (`decode_eq_of_take_eq`).
* (failures) Over an image in memory it is the length of the image and the stored data offset that decide whether
  there is a header, and which error there is if not (`read_eq_error_iff`).
-/

namespace VgmPlayback.Header

open LittleEndian

variable {h : Header} {f : Field} {image image' : List UInt8} {data : UInt32}

/-! ### The window -/

/-- The end of the bytes that a header depends on: the data start or the end of the fields that the version has,
whichever comes first, but not in front of the end of the data offset. -/
def fieldsEnd (h : Header) : Nat :=
  max 0x38 (min h.dataStart (if h.get .version ≤ 0x151 then 0x80 else headerImageSize))

private theorem offset_add_four_le_fieldsEnd (hpresent : f.present (h.get .version) h.dataStart = true) :
    f.offset + 4 ≤ h.fieldsEnd := by
  have htable : f.offset + 4 ≤ 0xCC := f.offset_add_four_le
  have hword : f.offset = 4 * f.index.val := rfl
  have hthere := mt Field.present_eq_false_iff.2 (by rw [hpresent]; decide)
  unfold fieldsEnd headerImageSize
  by_cases hold : h.get .version ≤ 0x151
  · rw [if_pos hold]
    simp only [hold, and_true, not_or, not_and] at hthere
    omega
  · rw [if_neg hold]
    simp only [hold, and_false, or_false, not_and] at hthere
    omega

/-- The header of an image depends on the words of the fields that are present. -/
private theorem ofImage_congr
    (hwords : ∀ f : Field, f.present (rawWord image .version) data.toNat = true → rawWord image' f = rawWord image f) :
    ofImage image' data = ofImage image data := by
  have hversion := hwords .version (Field.present_of_offset_le (by decide) _ _)
  have hloop := hwords .loopOffset (Field.present_of_offset_le (by decide) _ _)
  apply ext_get
  intro f
  by_cases hfdata : f = .dataOffset
  · subst hfdata
    simp [ofImage]
  by_cases hfloop : f = .loopOffset
  · subst hfloop
    simp [ofImage, hloop]
  · rw [get_ofImage hfdata hfloop, get_ofImage hfdata hfloop, hversion]
    split
    · rename_i hpresent
      exact hwords f hpresent
    · rfl

/-- A file that agrees with `image` in front of the end of the fields (`image` itself, say) has the same header, and
that is the header read from it if it reaches the data start. -/
theorem decode_eq_of_take_eq (hdec : decode image = .ok h) (image' : List UInt8)
    (hlength : minHeaderSize ≤ image'.length) (hagree : image'.take h.fieldsEnd = image.take h.fieldsEnd) :
    decode image' = .ok h ∧
    (h.dataStart ≤ image'.length → ∀ k,
      read (.inImage image' k) = .ok h (.inImage image' (min headerImageSize image'.length))) := by
  obtain ⟨-, data, hdata, himage⟩ := decode_eq_ok_iff.1 hdec
  have hstart : h.dataStart = data.toNat := by
    rw [← himage, dataStart, ofImage, get_ofFields]
  have hversion : h.get .version = rawWord image .version := by
    rw [← himage, get_ofImage (by decide) (by decide), if_pos (Field.present_of_offset_le (by decide) _ _)]
  have hwords : ∀ f : Field, f.present (rawWord image .version) data.toNat = true →
      rawWord image' f = rawWord image f := by
    intro f hpresent
    rw [← hversion, ← hstart] at hpresent
    have hend := offset_add_four_le_fieldsEnd hpresent
    rw [rawWord, rawWord, ← word32At?_take hend, hagree, word32At?_take hend]
  have hoffset := hwords .dataOffset (Field.present_of_offset_le (by decide) _ _)
  have hdec' : decode image' = .ok h :=
    decode_eq_ok_iff.2 ⟨hlength, data, by rw [hoffset, hdata], by rw [ofImage_congr hwords, himage]⟩
  exact ⟨hdec', fun hreaches k => read_inImage_eq_ok hdec' hreaches k⟩

/-- A file whose data start in the middle of the word at 0x3C. -/
private def straddled (rest : List UInt8) : List UInt8 :=
  bytes32 identWord ++ List.replicate 0x30 0 ++ bytes32 0x0A ++ [1, 2, 3, 4, 5, 6] ++ rest

theorem decode_eq_of_take_eq_straddled : ∃ h, decode (straddled [0x61, 0x62]) = .ok h ∧ h.fieldsEnd = 0x3E ∧
    h.get .segaPcmClock = 0x04030201 ∧ h.get .segaPcmInterface = 0 ∧
    decode (straddled [0x66, 0x54, 0x08]) = .ok h ∧
    read (.inImage (straddled [0x66, 0x54, 0x08]) 7) = .ok h (.inImage (straddled [0x66, 0x54, 0x08]) 0x41) := by
  have hdec : decode (straddled [0x61, 0x62]) = .ok (ofImage (straddled [0x61, 0x62]) 0x3E) := rfl
  obtain ⟨hsame, hread⟩ := decode_eq_of_take_eq hdec (straddled [0x66, 0x54, 0x08]) (by decide) (by decide)
  exact ⟨_, hdec, by decide, by decide, by decide, hsame, hread (by decide) 7⟩

/-! ### Failures -/

/-- Where the data start by what is stored, whether or not that is a word. -/
def declaredStart (image : List UInt8) : Nat :=
  if rawWord image .dataOffset = 0 ∨ rawWord image .dataOffset = 0x0C then 0x40
  else (rawWord image .dataOffset).toNat + 0x34

private theorem absoluteData?_rawWord (image : List UInt8) :
    absoluteData? (rawWord image .dataOffset) =
      if UInt32.size ≤ declaredStart image then none else some (UInt32.ofNat (declaredStart image)) := by
  have hoffset : Field.dataOffset.offset = 0x34 := rfl
  unfold absoluteData? declaredStart
  generalize rawWord image .dataOffset = raw
  by_cases hlegacy : raw = 0 ∨ raw = 0x0C
  · rw [if_pos hlegacy, if_pos hlegacy]
    rfl
  · rw [if_neg hlegacy, if_neg hlegacy, hoffset]
    by_cases hfits : raw.toNat + 0x34 < UInt32.size
    · have hadd : UInt32.ofNat (raw.toNat + 0x34) = raw + 0x34 := by
        rw [UInt32.ofNat_add, UInt32.ofNat_toNat]
        rfl
      rw [if_pos hfits, if_neg (Nat.not_le.2 hfits), hadd]
    · rw [if_neg hfits, if_pos (Nat.not_lt.1 hfits)]

variable (k : Nat)

private theorem read_of_short (hshort : image.length < minHeaderSize) :
    ∃ s, read (.inImage image k) = .error (.headerTooShort minHeaderSize image.length) s := by
  have htake : image.take headerImageSize = image :=
    List.take_of_length_le (Nat.le_of_lt (Nat.lt_trans hshort (by decide)))
  rw [read_inImage, htake, decode, if_pos hshort]
  exact ⟨_, rfl⟩

private theorem not_length_take_lt (hlong : minHeaderSize ≤ image.length) :
    ¬ (image.take headerImageSize).length < minHeaderSize := by
  rw [List.length_take]
  unfold minHeaderSize at hlong
  unfold headerImageSize minHeaderSize
  omega

/-- The overflow is found before the size of the source is looked at. -/
private theorem read_of_overflow (hlong : minHeaderSize ≤ image.length) (hover : UInt32.size ≤ declaredStart image) :
    ∃ s, read (.inImage image k) =
      .error (.dataOffsetOutOfRange (declaredStart image) (min headerImageSize image.length)) s := by
  have hdata := absoluteData?_rawWord image
  rw [if_pos hover] at hdata
  have hstored : (rawWord image .dataOffset).toNat + Field.dataOffset.offset = declaredStart image := by
    unfold declaredStart at hover ⊢
    split at hover
    · exact absurd hover (by decide)
    · rename_i hlegacy
      rw [if_neg hlegacy]
      rfl
  rw [read_inImage, decode, if_neg (not_length_take_lt hlong)]
  simp only [rawWord_take, hdata, hstored, List.length_take]
  exact ⟨_, rfl⟩

private theorem read_of_word (hlong : minHeaderSize ≤ image.length) (hword : declaredStart image < UInt32.size) :
    ∃ h s, read (.inImage image k) =
      if image.length < declaredStart image then .error (.dataOffsetOutOfRange (declaredStart image) image.length) s
      else .ok h s := by
  have hdata := absoluteData?_rawWord image
  rw [if_neg (Nat.not_le.2 hword)] at hdata
  have hstart : (ofImage image (UInt32.ofNat (declaredStart image))).dataStart = declaredStart image := by
    rw [dataStart, ofImage, get_ofFields, UInt32.toNat_ofNat_of_lt' hword]
  refine ⟨ofImage image (UInt32.ofNat (declaredStart image)), .inImage image (min headerImageSize image.length), ?_⟩
  rw [read_inImage, decode, if_neg (not_length_take_lt hlong)]
  simp only [rawWord_take, ofImage_take, hdata, hstart]

/-- Reading a header from memory fails for want of bytes or because the data start lies behind the end of the image
or is no word; if it is no word, the size reported is that of the field table, unless the image is shorter. -/
theorem read_eq_error_iff (image : List UInt8) (k : Nat) :
    (∀ e, (∃ s, read (.inImage image k) = .error e s) ↔
      image.length < minHeaderSize ∧ e = .headerTooShort minHeaderSize image.length ∨
      minHeaderSize ≤ image.length ∧ (image.length < declaredStart image ∨ UInt32.size ≤ declaredStart image) ∧
        e = .dataOffsetOutOfRange (declaredStart image)
          (if UInt32.size ≤ declaredStart image then min headerImageSize image.length else image.length)) ∧
    ((∃ h s, read (.inImage image k) = .ok h s) ↔
      minHeaderSize ≤ image.length ∧ declaredStart image ≤ image.length ∧ declaredStart image < UInt32.size) := by
  rcases Nat.lt_or_ge image.length minHeaderSize with hshort | hlong
  · obtain ⟨s, hread⟩ := read_of_short k hshort
    simp [hread, hshort, Nat.not_le.2 hshort, eq_comm]
  · rcases Nat.lt_or_ge (declaredStart image) UInt32.size with hword | hover
    · obtain ⟨h, s, hread⟩ := read_of_word k hlong hword
      by_cases hbeyond : image.length < declaredStart image
      · rw [if_pos hbeyond] at hread
        simp [hread, hlong, hbeyond, hword, Nat.not_lt.2 hlong, Nat.not_le.2 hbeyond, Nat.not_le.2 hword, eq_comm]
      · rw [if_neg hbeyond] at hread
        simp [hread, hlong, hbeyond, hword, Nat.not_lt.2 hlong, Nat.not_lt.1 hbeyond, Nat.not_le.2 hword]
    · obtain ⟨s, hread⟩ := read_of_overflow k hlong hover
      simp [hread, hlong, hover, Nat.not_lt.2 hlong, Nat.not_lt.2 hover, eq_comm]

/-- A file that is longer than the field table, with a data start behind the largest position. -/
private def overshot : List UInt8 := List.replicate 0x34 0 ++ bytes32 0xFFFFFFF0 ++ List.replicate 0x98 0

theorem read_eq_error_iff_overshot : overshot.length = 0xD0 ∧
    (∃ s, read (.inImage overshot 0) = .error (.dataOffsetOutOfRange 0x100000024 0xCC) s) ∧
    ¬ ∃ s, read (.inImage overshot 0) = .error (.dataOffsetOutOfRange 0x100000024 0xD0) s := by
  have hfails := (read_eq_error_iff overshot 0).1
  refine ⟨by decide +kernel, (hfails _).2 (by decide +kernel), fun hread => ?_⟩
  exact absurd ((hfails _).1 hread) (by decide +kernel)

end VgmPlayback.Header
