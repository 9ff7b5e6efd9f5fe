import VgmPlayback.Format.HeaderCodec
import VgmPlayback.Proofs.MemorySource

/-!
# Reading headers from memory

Reading a header takes the first bytes of a file only, as many as the field table has.  No field is stored
behind them, so over an image in memory `read` finds what `decode` finds in the whole image: it succeeds when
the whole image has a header and reaches the data start (`read_inImage_eq_ok`), and only then
(`of_read_inImage_eq_ok`).
-/

namespace VgmPlayback

namespace LittleEndian

/-- A word depends on its own four bytes only. -/
theorem word32At?_take {bytes : List UInt8} {off n : Nat} (h : off + 4 ≤ n) :
    word32At? (bytes.take n) off = word32At? bytes off := by
  -- the window reaches over the word, so the first four bytes from `off` on are the same
  obtain ⟨k, rfl⟩ : ∃ k, n = off + (k + 4) := ⟨n - off - 4, by omega⟩
  have hdrop : (bytes.take (off + (k + 4))).drop off = (bytes.drop off).take (k + 4) := by
    rw [List.drop_take, Nat.add_sub_cancel_left]
  rw [word32At?, word32At?, hdrop]
  rcases bytes.drop off with _ | ⟨b₀, _ | ⟨b₁, _ | ⟨b₂, _ | ⟨b₃, rest⟩⟩⟩⟩ <;> rfl

end LittleEndian

namespace Field

/-- No field is stored behind the table. -/
theorem offset_add_four_le (f : Field) : f.offset + 4 ≤ headerImageSize := by
  have hlt : f.index.val < 51 := f.index.isLt
  simp only [offset, headerImageSize]
  omega

end Field

namespace Header

open LittleEndian

theorem rawWord_take (image : List UInt8) (f : Field) :
    rawWord (image.take headerImageSize) f = rawWord image f := by
  rw [rawWord, rawWord, word32At?_take f.offset_add_four_le]

theorem ofImage_take (image : List UInt8) (data : UInt32) :
    ofImage (image.take headerImageSize) data = ofImage image data := by
  simp only [ofImage, rawWord_take]

/-- The bytes behind the field table do not matter to the header. -/
theorem decode_take_eq_ok_iff (image : List UInt8) (h : Header) :
    decode (image.take headerImageSize) = .ok h ↔ decode image = .ok h := by
  have hlen : (image.take headerImageSize).length < minHeaderSize ↔ image.length < minHeaderSize := by
    rw [List.length_take]
    simp only [headerImageSize, minHeaderSize]
    omega
  simp only [decode, hlen, rawWord_take, ofImage_take]
  by_cases hshort : image.length < minHeaderSize
  · simp [hshort]
  · simp only [hshort, ↓reduceIte]
    cases absoluteData? (rawWord image .dataOffset) <;> simp

/-- Over an image in memory the first bytes are decoded, and then the data start is compared with the size. -/
theorem read_inImage (image : List UInt8) (k : Nat) :
    read (.inImage image k) =
      match decode (image.take headerImageSize) with
      | .error e => .error e (.inImage image (min headerImageSize image.length))
      | .ok h =>
        if image.length < h.dataStart then
          .error (.dataOffsetOutOfRange h.dataStart image.length) (.inImage image (min headerImageSize image.length))
        else .ok h (.inImage image (min headerImageSize image.length)) := by
  have hbytes : (do Source.seek 0; Source.take headerImageSize : EStateM IoError Source (List UInt8))
      (.inImage image k) =
      .ok (image.take headerImageSize) (.inImage image (min headerImageSize image.length)) := by
    simp [bind, EStateM.bind]
  rw [read, hbytes]
  rfl

theorem read_inImage_eq_ok {image : List UInt8} {h : Header} (hdec : decode image = .ok h)
    (hdata : h.dataStart ≤ image.length) (k : Nat) :
    read (.inImage image k) = .ok h (.inImage image (min headerImageSize image.length)) := by
  rw [read_inImage, (decode_take_eq_ok_iff image h).2 hdec]
  exact if_neg (Nat.not_lt.2 hdata)

theorem of_read_inImage_eq_ok {image : List UInt8} {h : Header} {k : Nat} {s : Source}
    (hread : read (.inImage image k) = .ok h s) :
    decode image = .ok h ∧ h.dataStart ≤ image.length ∧ s = .inImage image (min headerImageSize image.length) := by
  rw [read_inImage] at hread
  cases hdec : decode (image.take headerImageSize) with
  | error e => simp [hdec] at hread
  | ok h' =>
    simp only [hdec] at hread
    by_cases hlt : image.length < h'.dataStart
    · rw [if_pos hlt] at hread
      cases hread
    · rw [if_neg hlt] at hread
      cases hread
      exact ⟨(decode_take_eq_ok_iff image h).1 hdec, Nat.not_lt.1 hlt, rfl⟩

end Header

end VgmPlayback
