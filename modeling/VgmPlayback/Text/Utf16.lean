/-!
# UTF-16

Text as sixteen-bit code units.  A character above U+FFFF is a high surrogate followed by a low one.  Decoding
puts U+FFFD in place of a surrogate that is not part of such a pair, so it never fails; it undoes encoding
(`decodeLossy_encode`).  The unit 0 encodes the character NUL only (`zero_notMem_encode`), so it can end a text.
-/

namespace VgmPlayback.Utf16

/-- The code units of one character. -/
def encodeChar (c : Char) : List UInt16 :=
  let n := c.toNat
  if n < 0x10000 then [UInt16.ofNat n]
  else [UInt16.ofNat (0xD800 + (n - 0x10000) / 0x400), UInt16.ofNat (0xDC00 + (n - 0x10000) % 0x400)]

def encode (cs : List Char) : List UInt16 := cs.flatMap encodeChar

def isHigh (u : UInt16) : Bool := 0xD800 ≤ u.toNat && u.toNat < 0xDC00

def isLow (u : UInt16) : Bool := 0xDC00 ≤ u.toNat && u.toNat < 0xE000

/-- The character of a unit that is not part of a pair. -/
def single (u : UInt16) : Char :=
  if isHigh u || isLow u then '\uFFFD' else Char.ofNat u.toNat

/-- The character of a high surrogate and the low one after it. -/
def pair (u v : UInt16) : Char :=
  Char.ofNat (0x10000 + 0x400 * (u.toNat - 0xD800) + (v.toNat - 0xDC00))

/-- The text of the units, with U+FFFD for each surrogate out of place. -/
def decodeLossy : List UInt16 → List Char
  | [] => []
  | [u] => [single u]
  | u :: v :: us =>
    if isHigh u && isLow v then pair u v :: decodeLossy us else single u :: decodeLossy (v :: us)

private theorem toNat_lt_of_char (c : Char) :
    c.toNat < 0xD800 ∨ (0xDFFF < c.toNat ∧ c.toNat < 0x110000) := c.valid

private theorem single_of_char {c : Char} (h : c.toNat < 0x10000) : single (UInt16.ofNat c.toNat) = c := by
  have hv := toNat_lt_of_char c
  have hn : (UInt16.ofNat c.toNat).toNat = c.toNat := by
    rw [UInt16.toNat_ofNat']; omega
  have hs : (isHigh (UInt16.ofNat c.toNat) || isLow (UInt16.ofNat c.toNat)) = false := by
    simp only [isHigh, isLow, hn, Bool.or_eq_false_iff, Bool.and_eq_false_iff, decide_eq_false_iff_not]
    omega
  rw [single, hs, hn]
  exact Char.ofNat_toNat c

private theorem decodeLossy_cons_of_not_high {u : UInt16} (h : isHigh u = false) (us : List UInt16) :
    decodeLossy (u :: us) = single u :: decodeLossy us := by
  cases us with
  | nil => rfl
  | cons v us => simp [decodeLossy, h]

private theorem decodeLossy_encodeChar_append (c : Char) (us : List UInt16) :
    decodeLossy (encodeChar c ++ us) = c :: decodeLossy us := by
  have hv := toNat_lt_of_char c
  by_cases h : c.toNat < 0x10000
  · have hn : (UInt16.ofNat c.toNat).toNat = c.toNat := by
      rw [UInt16.toNat_ofNat']; omega
    have hh : isHigh (UInt16.ofNat c.toNat) = false := by
      simp only [isHigh, hn, Bool.and_eq_false_iff, decide_eq_false_iff_not]
      omega
    simp only [encodeChar, h, ↓reduceIte, List.singleton_append]
    rw [decodeLossy_cons_of_not_high hh, single_of_char h]
  · have h₁ : (UInt16.ofNat (0xD800 + (c.toNat - 0x10000) / 0x400)).toNat =
        0xD800 + (c.toNat - 0x10000) / 0x400 := by
      rw [UInt16.toNat_ofNat']; omega
    have h₂ : (UInt16.ofNat (0xDC00 + (c.toNat - 0x10000) % 0x400)).toNat =
        0xDC00 + (c.toNat - 0x10000) % 0x400 := by
      rw [UInt16.toNat_ofNat']; omega
    simp only [encodeChar, h, ↓reduceIte, List.cons_append, List.nil_append, decodeLossy]
    have hp : (isHigh (UInt16.ofNat (0xD800 + (c.toNat - 0x10000) / 0x400)) &&
        isLow (UInt16.ofNat (0xDC00 + (c.toNat - 0x10000) % 0x400))) = true := by
      simp only [isHigh, isLow, h₁, h₂, Bool.and_eq_true, decide_eq_true_eq]
      omega
    have hc : 0x10000 + 0x400 * (0xD800 + (c.toNat - 0x10000) / 0x400 - 0xD800) +
        (0xDC00 + (c.toNat - 0x10000) % 0x400 - 0xDC00) = c.toNat := by
      omega
    rw [hp, if_pos rfl, pair, h₁, h₂, hc, Char.ofNat_toNat]

/-- Decoding undoes encoding. -/
theorem decodeLossy_encode (cs : List Char) : decodeLossy (encode cs) = cs := by
  induction cs with
  | nil => rfl
  | cons c cs ih =>
    rw [encode, List.flatMap_cons, decodeLossy_encodeChar_append]
    exact congrArg (c :: ·) ih

/-- Only the character NUL has the unit 0. -/
theorem zero_notMem_encode {cs : List Char} (hcs : '\x00' ∉ cs) : 0 ∉ encode cs := by
  intro hmem
  obtain ⟨c, hc, hunit⟩ := List.mem_flatMap.1 hmem
  have hvalid := toNat_lt_of_char c
  have hne : c.toNat ≠ 0 := by
    intro hzero
    have hnul : c = '\x00' := by rw [← Char.ofNat_toNat c, hzero]
    exact hcs (hnul ▸ hc)
  have hnonzero : ∀ n, 0 < n → n < 0x10000 → (0 : UInt16) ≠ UInt16.ofNat n := by
    intro n hpos hlt heq
    have htoNat := congrArg UInt16.toNat heq
    rw [UInt16.toNat_ofNat', UInt16.toNat_zero] at htoNat
    omega
  unfold encodeChar at hunit
  dsimp only at hunit
  split at hunit
  · exact hnonzero _ (by omega) (by omega) (List.mem_singleton.1 hunit)
  · rcases List.mem_cons.1 hunit with hhigh | hlow
    · exact hnonzero _ (by omega) (by omega) hhigh
    · exact hnonzero _ (by omega) (by omega) (List.mem_singleton.1 hlow)

end VgmPlayback.Utf16
