import VgmPlayback.Format.HeaderCodec

/-!
# Headers written and read back

`Header.encode` and `Header.decode` go by the same field table, so a header is read back as it was written, except
where the file has no room or no name for a value (`Header.readBack`): a field that would overlap the commands or
that the version does not have comes back as zero, and the loop offsets that are stored as zero, which are 0 and
0x1C, come back as the data start (`decode_encode_append`).  A data start in front of its own field cannot be
written (`decode_encode_of_lt`).

A header that was read has no value of these kinds but one: the loop offset 0, which the stored word 0xFFFFFFE4
stands for (`decode_encode_decode`).
-/

namespace VgmPlayback

open LittleEndian

namespace Field

theorem getElem?_all (f : Field) : all[f.index.val]? = some f := by
  cases f <;> rfl

theorem inVersion_of_offset_lt {f : Field} (hf : f.offset < 0x80) (version : UInt32) : f.inVersion version = true := by
  simp only [inVersion, hf, decide_true, Bool.true_or]

theorem present_of_offset_le {f : Field} (hf : f.offset ≤ 0x34) (version : UInt32) (dataStart : Nat) :
    f.present version dataStart = true := by
  have hoffset : Field.dataOffset.offset = 0x34 := rfl
  simp [present, hoffset, hf]

/-- Only a field behind the data offset can be missing: for want of room, or because the version is too old. -/
theorem present_eq_false_iff {f : Field} {version : UInt32} {dataStart : Nat} :
    f.present version dataStart = false ↔
      0x38 ≤ f.offset ∧ dataStart < f.offset + 4 ∨ 0x80 ≤ f.offset ∧ version ≤ 0x151 := by
  have hoffset : Field.dataOffset.offset = 0x34 := rfl
  have hword : f.offset = 4 * f.index.val := rfl
  simp only [present, inVersion, hoffset, Bool.or_eq_false_iff, Bool.and_eq_false_iff, decide_eq_false_iff_not,
    UInt32.not_lt]
  by_cases hold : version ≤ 0x151
  · simp only [hold, and_true]
    omega
  · simp only [hold, or_false, and_false]
    omega

end Field

namespace Header

variable {h : Header} {f : Field} {image : List UInt8} {data loop : UInt32}

/-! ### Offsets -/

theorem absoluteData?_relativeData (hdata : 0x35 ≤ data.toNat) : absoluteData? (relativeData data) = some data := by
  unfold relativeData
  by_cases hshort : data = 0x40
  · rw [if_pos hshort, hshort]
    rfl
  · have hlt := data.toNat_lt
    have hne : data.toNat ≠ 0x40 := fun heq => hshort (UInt32.toNat_inj.1 heq)
    have hle : (0x34 : UInt32) ≤ data := by
      rw [UInt32.le_iff_toNat_le]
      exact Nat.le_trans (by decide) hdata
    have hraw : (data - 0x34).toNat = data.toNat - 0x34 := UInt32.toNat_sub_of_le _ _ hle
    have hoffset : Field.dataOffset.offset = 0x34 := rfl
    rw [if_neg hshort, absoluteData?, if_neg, if_pos, UInt32.sub_add_cancel]
    · rw [hraw, hoffset, UInt32.size]
      omega
    · rw [← UInt32.toNat_inj, ← UInt32.toNat_inj, hraw]
      show ¬ (data.toNat - 0x34 = 0 ∨ data.toNat - 0x34 = 0x0C)
      omega

/-- A data start in front of its own field is stored as a word that leads past the largest position. -/
private theorem toNat_relativeData_of_lt (hdata : data.toNat < 0x34) :
    (relativeData data).toNat + 0x34 = UInt32.size + data.toNat := by
  have hne : data ≠ 0x40 := by
    intro heq
    rw [heq] at hdata
    exact absurd hdata (by decide)
  have hsub : (data - 0x34).toNat = (2 ^ 32 - 0x34 + data.toNat) % 2 ^ 32 := UInt32.toNat_sub data 0x34
  rw [relativeData, if_neg hne, hsub, UInt32.size]
  omega

private theorem absoluteData?_relativeData_of_lt (hdata : data.toNat < 0x34) :
    absoluteData? (relativeData data) = none := by
  have hraw := toNat_relativeData_of_lt hdata
  have hoffset : Field.dataOffset.offset = 0x34 := rfl
  have hsize : UInt32.size = 2 ^ 32 := rfl
  rw [absoluteData?, if_neg, if_neg]
  · rw [hoffset]
    omega
  · rw [← UInt32.toNat_inj, ← UInt32.toNat_inj]
    show ¬ ((relativeData data).toNat = 0 ∨ (relativeData data).toNat = 0x0C)
    omega

/-- The data start of a header that is read lies behind its own field. -/
theorem le_of_absoluteData?_eq_some {raw : UInt32} (hdata : absoluteData? raw = some data) : 0x35 ≤ data.toNat := by
  unfold absoluteData? at hdata
  split at hdata
  · cases hdata
    decide
  · rename_i hlegacy
    split at hdata
    · rename_i hfits
      cases hdata
      have hne : raw.toNat ≠ 0 := fun heq => hlegacy (.inl (UInt32.toNat_inj.1 heq))
      have hoffset : Field.dataOffset.offset = 0x34 := rfl
      have hadd : (raw + 0x34).toNat = (raw.toNat + 0x34) % 2 ^ 32 := UInt32.toNat_add raw 0x34
      rw [hoffset, UInt32.size] at hfits
      omega
    · cases hdata

/-- The stored word that leads to a loop start. -/
private theorem add_eq_iff (raw loop : UInt32) : raw + 0x1C = loop ↔ raw = loop - 0x1C := by
  constructor
  · intro heq
    rw [← heq, UInt32.add_sub_cancel]
  · intro heq
    rw [heq, UInt32.sub_add_cancel]

theorem absoluteLoop_relativeLoop (loop data : UInt32) :
    absoluteLoop (relativeLoop loop data) data = if loop = 0 ∨ loop = 0x1C then data else loop := by
  unfold relativeLoop absoluteLoop
  by_cases hzero : loop = 0
  · simp [hzero]
  · by_cases hstart : loop = data
    · simp [hstart]
    · rw [if_neg (show ¬ (loop = data ∨ loop = 0) by simp [hzero, hstart])]
      have hraw : loop - 0x1C = 0 ↔ loop = 0x1C := by
        rw [eq_comm, ← add_eq_iff, UInt32.zero_add, eq_comm]
      by_cases hfield : loop = 0x1C
      · rw [if_pos (hraw.2 hfield), if_pos (.inr hfield)]
      · rw [if_neg (mt hraw.1 hfield), if_neg (by simp [hzero, hfield]), UInt32.sub_add_cancel]

/-- The loop starts that are read are those that can be written, and 0. -/
private theorem absoluteLoop_ne (raw : UInt32) (hdata : 0x35 ≤ data.toNat) : absoluteLoop raw data ≠ 0x1C := by
  intro heq
  unfold absoluteLoop at heq
  split at heq
  · rw [heq] at hdata
    exact absurd hdata (by decide)
  · rename_i hraw
    exact hraw ((add_eq_iff raw 0x1C).1 heq)

private theorem absoluteLoop_eq_zero_iff (raw : UInt32) (hdata : 0x35 ≤ data.toNat) :
    absoluteLoop raw data = 0 ↔ raw = 0xFFFFFFE4 := by
  unfold absoluteLoop
  constructor
  · intro heq
    split at heq
    · rw [heq] at hdata
      exact absurd hdata (by decide)
    · exact (add_eq_iff raw 0).1 heq
  · intro hraw
    rw [hraw]
    rfl

/-! ### Reading what was written -/

private theorem word32At?_flatMap_bytes32 {g : Field → UInt32} {fs : List Field} {i : Nat} {f : Field}
    (hf : fs[i]? = some f) (rest : List UInt8) :
    word32At? ((fs.flatMap fun f => bytes32 (g f)) ++ rest) (4 * i) = some (g f) := by
  induction fs generalizing i with
  | nil => cases hf
  | cons f' fs ih =>
    rw [List.flatMap_cons, List.append_assoc]
    cases i with
    | zero =>
      cases hf
      exact word32At?_append [] _ _
    | succ i =>
      -- the first word is passed over
      have hskip : ∀ w tail, word32At? (bytes32 w ++ tail) (4 * i + 4) = word32At? tail (4 * i) := fun _ _ => rfl
      rw [Nat.mul_succ, hskip]
      exact ih hf

theorem rawWord_encode_append (hroom : f.offset + 4 ≤ h.encodedSize) (rest : List UInt8) :
    rawWord (h.encode ++ rest) f = h.storedWord f := by
  have hindex : f.index.val < h.encodedSize / 4 := by
    unfold Field.offset at hroom
    omega
  have hf : (Field.all.take (h.encodedSize / 4))[f.index.val]? = some f := by
    rw [List.getElem?_take_of_lt hindex]
    exact f.getElem?_all
  rw [rawWord, encode, List.append_assoc, Field.offset, word32At?_flatMap_bytes32 hf]
  rfl

private theorem storedWord_of_inVersion (hf : f.inVersion (h.get .version) = true) (hdata : f ≠ .dataOffset)
    (hloop : f ≠ .loopOffset) : h.storedWord f = h.get f := by
  unfold storedWord
  rw [if_pos hf]
  split
  · contradiction
  · contradiction
  · rfl

theorem get_ofImage (hdata : f ≠ .dataOffset) (hloop : f ≠ .loopOffset) :
    (ofImage image data).get f =
      if f.present (rawWord image .version) data.toNat then rawWord image f else 0 := by
  unfold ofImage
  rw [get_ofFields]
  split
  · contradiction
  · contradiction
  · rfl

/-- What is read back of a header once it is written. -/
def readBack (h : Header) : Header := ofFields fun f =>
  if f.present (h.get .version) h.dataStart then
    if f = .loopOffset ∧ (h.get f = 0 ∨ h.get f = 0x1C) then h.get .dataOffset else h.get f
  else 0

/-- The fields up to the data offset are written into every header. -/
private theorem rawWord_encode_of_offset_le (hf : f.offset ≤ 0x34) (rest : List UInt8) :
    rawWord (h.encode ++ rest) f = h.storedWord f := by
  refine rawWord_encode_append ?_ rest
  have hsize : minHeaderSize ≤ h.encodedSize := Nat.le_max_right _ _
  unfold minHeaderSize at hsize
  omega

private theorem rawWord_dataOffset_encode (rest : List UInt8) :
    rawWord (h.encode ++ rest) .dataOffset = relativeData (h.get .dataOffset) := by
  rw [rawWord_encode_of_offset_le (by decide), storedWord, if_pos (Field.inVersion_of_offset_lt (by decide) _)]

private theorem rawWord_loopOffset_encode (rest : List UInt8) :
    rawWord (h.encode ++ rest) .loopOffset = relativeLoop (h.get .loopOffset) (h.get .dataOffset) := by
  rw [rawWord_encode_of_offset_le (by decide), storedWord, if_pos (Field.inVersion_of_offset_lt (by decide) _)]

/-- A field that is present is written as it is, unless it is one of the two offsets. -/
private theorem rawWord_encode_of_present (hpresent : f.present (h.get .version) h.dataStart = true)
    (hdata : f ≠ .dataOffset) (hloop : f ≠ .loopOffset) (rest : List UInt8) :
    rawWord (h.encode ++ rest) f = h.get f := by
  simp only [Field.present, Bool.or_eq_true, Bool.and_eq_true, decide_eq_true_eq] at hpresent
  rcases hpresent with hle | ⟨hroom, hin⟩
  · have hlt : f.offset < 0x80 := Nat.lt_of_le_of_lt hle (by decide)
    rw [rawWord_encode_of_offset_le hle]
    exact storedWord_of_inVersion (Field.inVersion_of_offset_lt hlt _) hdata hloop
  · have hsize : h.dataStart ≤ h.encodedSize := Nat.le_max_left _ _
    rw [rawWord_encode_append (by omega)]
    exact storedWord_of_inVersion hin hdata hloop

private theorem ofImage_encode (rest : List UInt8) :
    ofImage (h.encode ++ rest) (h.get .dataOffset) = h.readBack := by
  apply ext_get
  intro f
  by_cases hfdata : f = .dataOffset
  · subst hfdata
    simp [ofImage, readBack, Field.present_of_offset_le (f := .dataOffset) (by decide)]
  by_cases hfloop : f = .loopOffset
  · subst hfloop
    simp [ofImage, readBack, rawWord_loopOffset_encode, absoluteLoop_relativeLoop,
      Field.present_of_offset_le (f := .loopOffset) (by decide)]
  · have hthere : Field.version.present (h.get .version) h.dataStart = true :=
      Field.present_of_offset_le (by decide) _ _
    have hversion : rawWord (h.encode ++ rest) .version = h.get .version :=
      rawWord_encode_of_present hthere nofun nofun rest
    have hback : h.readBack.get f = if f.present (h.get .version) h.dataStart then h.get f else 0 := by
      simp [readBack, hfloop]
    rw [get_ofImage hfdata hfloop, hversion, hback]
    show (if f.present (h.get .version) h.dataStart then _ else _) = _
    split
    · rename_i hpresent
      exact rawWord_encode_of_present hpresent hfdata hfloop rest
    · rfl

private theorem minHeaderSize_le_length (h : Header) (rest : List UInt8) :
    ¬ (h.encode ++ rest).length < minHeaderSize := by
  have hsize : minHeaderSize ≤ h.encodedSize := Nat.le_max_right _ _
  rw [List.length_append, length_encode]
  omega

theorem decode_encode_append (hdata : 0x35 ≤ h.dataStart) (rest : List UInt8) :
    decode (h.encode ++ rest) = .ok h.readBack := by
  rw [decode, if_neg (minHeaderSize_le_length h rest)]
  simp only [rawWord_dataOffset_encode, absoluteData?_relativeData hdata, ofImage_encode]

private theorem decode_encode_of_lt (hdata : h.dataStart < 0x34) :
    decode h.encode = .error (.dataOffsetOutOfRange (UInt32.size + h.dataStart) 0x40) := by
  have hraw := rawWord_dataOffset_encode (h := h) []
  have hlong := minHeaderSize_le_length h []
  have hsize : h.encodedSize = 0x40 := by
    unfold encodedSize minHeaderSize
    omega
  have hoffset : Field.dataOffset.offset = 0x34 := rfl
  rw [List.append_nil] at hraw hlong
  rw [decode, if_neg hlong]
  simp only [hraw, absoluteData?_relativeData_of_lt hdata, hoffset, toNat_relativeData_of_lt hdata, length_encode, hsize]
  rfl

/-- A field that is present is read back, if it is not a loop offset that is stored as zero. -/
theorem get_readBack_of_present (hpresent : f.present (h.get .version) h.dataStart = true)
    (hloop : h.get .loopOffset = h.get .dataOffset ∨ 0x1C < h.loopStart) : h.readBack.get f = h.get f := by
  rw [readBack, get_ofFields, if_pos hpresent]
  split
  · rename_i hstored
    obtain ⟨rfl, hstored⟩ := hstored
    rcases hloop with heq | hlt
    · exact heq.symm
    · rw [loopStart] at hlt
      rcases hstored with heq | heq
      · rw [heq] at hlt
        exact absurd hlt (by decide)
      · rw [heq] at hlt
        exact absurd hlt (by decide)
  · rfl

/-! ### Round trips -/

/-- What is written of a header, and what is read back of that: every field, except that those which would overlap
the commands or are too new for the version come back as zero, and a loop offset of 0 or 0x1C as the data start.  If
the data start lies in front of its own field, nothing is read back. -/
theorem decode_encode (h : Header) :
    (0x35 ≤ h.dataStart → ∃ h', decode h.encode = .ok h' ∧ ∀ f : Field, h'.get f =
      if 0x38 ≤ f.offset ∧ h.dataStart < f.offset + 4 then 0
      else if 0x80 ≤ f.offset ∧ h.get .version ≤ 0x151 then 0
      else if f = .loopOffset ∧ (h.get .loopOffset = 0 ∨ h.get .loopOffset = 0x1C) then h.get .dataOffset
      else h.get f) ∧
    h.encode.length = max h.dataStart 0x40 ∧
    (h.dataStart < 0x34 → decode h.encode = .error (.dataOffsetOutOfRange (UInt32.size + h.dataStart) 0x40)) := by
  refine ⟨?_, length_encode h, decode_encode_of_lt⟩
  intro hdata
  have hdec := decode_encode_append hdata []
  rw [List.append_nil] at hdec
  refine ⟨h.readBack, hdec, ?_⟩
  intro f
  rw [readBack, get_ofFields]
  cases hpresent : f.present (h.get .version) h.dataStart with
  | false =>
    rcases Field.present_eq_false_iff.1 hpresent with hroom | hold
    · rw [if_pos hroom]
      rfl
    · rw [if_pos hold, ite_self]
      rfl
  | true =>
    have hthere := mt Field.present_eq_false_iff.2 (by rw [hpresent]; decide)
    rw [not_or] at hthere
    rw [if_neg hthere.1, if_neg hthere.2, if_pos rfl]
    by_cases hfloop : f = .loopOffset
    · subst hfloop
      rfl
    · simp only [hfloop, false_and, ↓reduceIte]

/-- Commands in the middle of the last word before 0x40, and a loop offset at its own field. -/
private def crowded : Header := ofFields fun
  | .version => 0x150
  | .dataOffset => 0x3D
  | .loopOffset => 0x1C
  | .segaPcmClock => 4000000
  | .segaPcmInterface => 0xF000
  | _ => 0

theorem decode_encode_crowded : 0x35 ≤ crowded.dataStart ∧ ∃ h', decode crowded.encode = .ok h' ∧
    h'.get .segaPcmClock = 4000000 ∧ h'.get .segaPcmInterface = 0 ∧ h'.get .loopOffset = 0x3D ∧
    (crowded.set .dataOffset 0x33).dataStart < 0x34 ∧
    decode (crowded.set .dataOffset 0x33).encode = .error (.dataOffsetOutOfRange 0x100000033 0x40) := by
  have hdata : 0x35 ≤ crowded.dataStart := by decide
  obtain ⟨h', hdec, hget⟩ := (decode_encode crowded).1 hdata
  refine ⟨hdata, h', hdec, ?_, ?_, ?_, by decide, ?_⟩
  · rw [hget]
    decide
  · rw [hget]
    decide
  · rw [hget]
    decide
  · exact (decode_encode (crowded.set .dataOffset 0x33)).2.2 (by decide)

/-- There is a header when the image is long enough and its data start is a word. -/
theorem decode_eq_ok_iff :
    decode image = .ok h ↔ minHeaderSize ≤ image.length ∧
      ∃ data, absoluteData? (rawWord image .dataOffset) = some data ∧ ofImage image data = h := by
  unfold decode
  by_cases hshort : image.length < minHeaderSize
  · simp [hshort, Nat.not_le.2 hshort]
  · cases hdata : absoluteData? (rawWord image .dataOffset) with
    | none => simp [hshort, hdata]
    | some data => simp [hshort, hdata, Nat.not_lt.1 hshort]

private theorem of_decode_eq_ok (hdec : decode image = .ok h) :
    0x35 ≤ h.dataStart ∧ h = ofImage image (h.get .dataOffset) := by
  obtain ⟨-, data, hdata, himage⟩ := decode_eq_ok_iff.1 hdec
  have hget : h.get .dataOffset = data := by
    rw [← himage, ofImage, get_ofFields]
  rw [dataStart, hget]
  exact ⟨le_of_absoluteData?_eq_some hdata, himage.symm⟩

/-- What is missing from a header that was read is zero in it. -/
private theorem get_of_not_present (hdec : decode image = .ok h)
    (hpresent : ¬ f.present (h.get .version) h.dataStart = true) : h.get f = 0 := by
  obtain ⟨-, himage⟩ := of_decode_eq_ok hdec
  have hplaced : ∀ f' : Field, f'.offset ≤ 0x34 → f ≠ f' := by
    intro f' hle heq
    rw [heq] at hpresent
    exact hpresent (Field.present_of_offset_le hle _ _)
  have hversion : h.get .version = rawWord image .version := by
    rw [himage, get_ofImage (by decide) (by decide), if_pos (Field.present_of_offset_le (by decide) _ _)]
  rw [hversion] at hpresent
  rw [himage, get_ofImage (hplaced .dataOffset (by decide)) (hplaced .loopOffset (by decide))]
  exact if_neg hpresent

/-- The loop offset of a header that was read cannot be at its own field, and is 0 for one stored word only. -/
private theorem loopOffset_of_decode (hdec : decode image = .ok h) :
    h.get .loopOffset ≠ 0x1C ∧ (h.get .loopOffset = 0 ↔ rawWord image .loopOffset = 0xFFFFFFE4) := by
  obtain ⟨hdata, himage⟩ := of_decode_eq_ok hdec
  have hloop : h.get .loopOffset = absoluteLoop (rawWord image .loopOffset) (h.get .dataOffset) := by
    rw [himage]
    simp [ofImage]
  rw [hloop]
  exact ⟨absoluteLoop_ne _ hdata, absoluteLoop_eq_zero_iff _ hdata⟩

/-- Of a header that was read everything is read back, but the loop offset 0. -/
private theorem readBack_of_decode (hdec : decode image = .ok h) :
    h.readBack = if h.get .loopOffset = 0 then h.set .loopOffset (h.get .dataOffset) else h := by
  obtain ⟨hne, -⟩ := loopOffset_of_decode hdec
  apply ext_get
  intro f
  rw [readBack, get_ofFields]
  by_cases hfloop : f = .loopOffset
  · subst hfloop
    rw [if_pos (Field.present_of_offset_le (by decide) _ _)]
    by_cases hzero : h.get .loopOffset = 0 <;> simp [hzero, hne]
  · have hother := get_set_of_ne h (Ne.symm hfloop) (h.get .dataOffset)
    have hrest : (if h.get .loopOffset = 0 then h.set .loopOffset (h.get .dataOffset) else h).get f = h.get f := by
      split
      · exact hother
      · rfl
    rw [hrest]
    by_cases hpresent : f.present (h.get .version) h.dataStart = true
    · simp only [hpresent, hfloop, false_and, ↓reduceIte]
    · rw [if_neg hpresent]
      exact (get_of_not_present hdec hpresent).symm

/-- A header that was read comes back as it is when it is written and read again, except that the loop offset 0, for
which the stored word 0xFFFFFFE4 stands, comes back as the data start. -/
theorem decode_encode_decode (hdec : decode image = .ok h) :
    decode h.encode = .ok (if h.get .loopOffset = 0 then h.set .loopOffset (h.get .dataOffset) else h) ∧
    (h.get .loopOffset = 0 ↔ rawWord image .loopOffset = 0xFFFFFFE4) := by
  have hwritten := decode_encode_append (of_decode_eq_ok hdec).1 []
  rw [List.append_nil, readBack_of_decode hdec] at hwritten
  exact ⟨hwritten, (loopOffset_of_decode hdec).2⟩

/-- Nothing but the stored loop offset 0xFFFFFFE4. -/
private def wrapped : List UInt8 := List.replicate 0x1C 0 ++ [0xE4, 0xFF, 0xFF, 0xFF] ++ List.replicate 0x20 0

theorem decode_encode_decode_wrapped : ∃ h, decode wrapped = .ok h ∧ h.get .loopOffset = 0 ∧
    decode h.encode = .ok (h.set .loopOffset 0x40) := by
  have hdec : decode wrapped = .ok (ofImage wrapped 0x40) := rfl
  exact ⟨_, hdec, by decide, (decode_encode_decode hdec).1⟩

theorem not_decode_encode_wrapped : ¬ ∀ image h, decode image = .ok h → decode h.encode = .ok h := by
  intro hall
  have hwritten := decode_encode_append (h := ofImage wrapped 0x40) (by decide) []
  rw [List.append_nil, hall wrapped _ rfl, Except.ok.injEq] at hwritten
  have hloop := congrArg (fun h => h.get .loopOffset) hwritten
  exact absurd hloop (by decide)

end Header

end VgmPlayback
