/-!
# Header fields

The header of a track file is a row of fifty-one words, one every four bytes from the start of the file.
`Field` names them in this order; `Header` holds their values.
-/

namespace VgmPlayback

/-- The fields of the header in the order in which the file stores them. -/
inductive Field where
  | ident | eofOffset | version | sn76489Clock | ym2413Clock | gd3Offset | totalSamples | loopOffset
  | loopSamples | rate | sn76489Flags | ym2612Clock | ym2151Clock | dataOffset | segaPcmClock
  | segaPcmInterface | rf5c68Clock | ym2203Clock | ym2608Clock | ym2610Clock | ym3812Clock | ym3526Clock
  | y8950Clock | ymf262Clock | ymf278bClock | ymf271Clock | ymz280bClock | rf5c164Clock | pwmClock
  | ay8910Clock | ay8910Flags | volumeLoopModifiers | gbDmgClock | nesApuClock | multipcmClock
  | upd7759Clock | okim6258Clock | okim6258Flags | okim6295Clock | k051649Clock | k054539Clock
  | huc6280Clock | c140Clock | k053260Clock | pokeyClock | qsoundClock | scspClock | extraHeaderOffset
  | wonderswanClock | vsuClock | saa1099Clock
deriving DecidableEq, Repr

namespace Field

/-- The number of fields. -/
def count : Nat := 51

/-- All fields in file order. -/
def all : List Field :=
  [.ident, .eofOffset, .version, .sn76489Clock, .ym2413Clock, .gd3Offset, .totalSamples, .loopOffset,
   .loopSamples, .rate, .sn76489Flags, .ym2612Clock, .ym2151Clock, .dataOffset, .segaPcmClock,
   .segaPcmInterface, .rf5c68Clock, .ym2203Clock, .ym2608Clock, .ym2610Clock, .ym3812Clock, .ym3526Clock,
   .y8950Clock, .ymf262Clock, .ymf278bClock, .ymf271Clock, .ymz280bClock, .rf5c164Clock, .pwmClock,
   .ay8910Clock, .ay8910Flags, .volumeLoopModifiers, .gbDmgClock, .nesApuClock, .multipcmClock,
   .upd7759Clock, .okim6258Clock, .okim6258Flags, .okim6295Clock, .k051649Clock, .k054539Clock,
   .huc6280Clock, .c140Clock, .k053260Clock, .pokeyClock, .qsoundClock, .scspClock, .extraHeaderOffset,
   .wonderswanClock, .vsuClock, .saa1099Clock]

/-- The place of a field in the row. -/
def index (f : Field) : Fin count := ⟨f.ctorIdx, by cases f <;> decide⟩

/-- The position in the file of the first byte of a field. -/
def offset (f : Field) : Nat := 4 * f.index

/-- The field at a place of the row. -/
def ofIndex (i : Fin count) : Field := all.get (i.cast rfl)

@[simp] theorem ofIndex_index (f : Field) : ofIndex f.index = f := by
  cases f <;> rfl

@[simp] theorem index_ofIndex (i : Fin count) : (ofIndex i).index = i := by
  revert i; decide

theorem index_injective {f f' : Field} (h : f.index = f'.index) : f = f' := by
  rw [← ofIndex_index f, h, ofIndex_index]

end Field

/-- The value of each header field.  After reading, the data and loop offsets are positions in the file; the
other offsets are relative, as stored. -/
structure Header where
  words : Vector UInt32 Field.count
deriving DecidableEq, Repr

namespace Header

/-- The header with the value `g f` in each field `f`. -/
def ofFields (g : Field → UInt32) : Header where
  words := Vector.ofFn fun i => g (.ofIndex i)

def get (h : Header) (f : Field) : UInt32 := h.words[f.index.val]

def set (h : Header) (f : Field) (w : UInt32) : Header where
  words := h.words.set f.index.val w

@[simp] theorem get_ofFields (g : Field → UInt32) (f : Field) : (ofFields g).get f = g f := by
  simp [ofFields, get]

@[simp] theorem get_set_self (h : Header) (f : Field) (w : UInt32) : (h.set f w).get f = w := by
  simp [set, get]

theorem get_set_of_ne (h : Header) {f f' : Field} (hf : f ≠ f') (w : UInt32) :
    (h.set f w).get f' = h.get f' := by
  have hne : f.index.val ≠ f'.index.val := fun he => hf (Field.index_injective (Fin.ext he))
  simp [set, get, Vector.getElem_set_ne _ _ hne]

theorem ext_get {h h' : Header} (hf : ∀ f, h.get f = h'.get f) : h = h' := by
  obtain ⟨ws⟩ := h
  obtain ⟨ws'⟩ := h'
  congr 1
  apply Vector.ext
  intro i hi
  have := hf (.ofIndex ⟨i, hi⟩)
  simpa [get] using this

/-- The word that the four characters of the identifier spell. -/
def identWord : UInt32 := 0x206D6756

/-- A header of version 1.71 with nothing set and the data at 0x100. -/
def blank : Header := ofFields fun
  | .ident => identWord
  | .version => 0x171
  | .loopOffset | .dataOffset => 0x100
  | _ => 0

instance : Inhabited Header := ⟨blank⟩

/-- The file begins with the identifier. -/
def verify (h : Header) : Bool := h.get .ident == identWord

/-- Where the commands start. -/
def dataStart (h : Header) : Nat := (h.get .dataOffset).toNat

/-- Where the commands go on after their end. -/
def loopStart (h : Header) : Nat := (h.get .loopOffset).toNat

/-- Where the metadata stand, if the header announces any. -/
def gd3Start? (h : Header) : Option Nat :=
  if h.get .gd3Offset = 0 then none else some ((h.get .gd3Offset).toNat + Field.gd3Offset.offset)

end Header

end VgmPlayback
