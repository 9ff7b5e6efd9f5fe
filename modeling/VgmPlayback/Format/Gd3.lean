import VgmPlayback.Format.Header
import VgmPlayback.LittleEndian
import VgmPlayback.Storage.Source
import VgmPlayback.Text.Utf16

/-!
# Gd3 metadata

A Gd3 chunk is a tag, a version, a length in bytes, and a table of eleven texts in UTF-16, each ended by a
zero unit.  Texts come in pairs, the second of a pair in the language of origin; only the first ones are
kept, that is the texts with an even number up to the release date.
-/

namespace VgmPlayback

open LittleEndian

structure Gd3 where
  trackName : String := ""
  gameName : String := ""
  systemName : String := ""
  author : String := ""
  releaseDate : String := ""
  version : UInt32 := 0
  /-- The length of the text table in bytes, as the chunk declares it. -/
  length : UInt32 := 0
deriving DecidableEq, Repr, Inhabited

namespace Gd3

/-- The five kept texts in the order of the table. -/
def texts (g : Gd3) : List String := [g.trackName, g.gameName, g.systemName, g.author, g.releaseDate]

/-- Nothing was found. -/
def isEmpty (g : Gd3) : Bool := g.length == 0 && g.texts.all String.isEmpty

/-! ### Encoding -/

/-- The eleven texts of the table; those that are not kept are empty. -/
def slots (g : Gd3) : List String :=
  [g.trackName, "", g.gameName, "", g.systemName, "", g.author, "", g.releaseDate, "", ""]

/-- The units of the table, each text followed by a zero unit. -/
def tableUnits (g : Gd3) : List UInt16 :=
  g.slots.flatMap fun text => Utf16.encode text.toList ++ [0]

/-- The characters `Gd3` and a blank. -/
def tag : List UInt8 := [0x47, 0x64, 0x33, 0x20]

/-- The whole chunk, with the length of its own table. -/
def encode (g : Gd3) : List UInt8 :=
  let table := g.tableUnits.flatMap bytes16
  tag ++ bytes32 g.version ++ bytes32 (UInt32.ofNat table.length) ++ table

/-- A chunk has its tag at least. -/
theorem encode_ne_nil (g : Gd3) : g.encode ≠ [] := List.cons_ne_nil _ _

/-! ### Reading -/

/-- What is worth reporting about a chunk that could not be read as a whole. -/
inductive Finding where
  /-- The bytes at `pos` are no tag: they are too few, or their sum is not that of a tag. -/
  | badTag (pos sum : Nat)
  /-- The file ends inside the text with number `slot`. -/
  | truncated (slot : Nat)
deriving DecidableEq, Repr

/-- The sum of the bytes of the tag.  A chunk is known by it. -/
def tagSum : Nat := 0xFE

/-- The text table while it is read: the number of the current text and the units kept so far, the latest
first. -/
structure TextTable where
  slot : Nat := 0
  kept : Vector (List UInt16) 5 := Vector.replicate 5 []

namespace TextTable

/-- The table after one more unit.  A zero unit ends the current text. -/
def push (t : TextTable) (u : UInt16) : TextTable :=
  if u = 0 then { t with slot := t.slot + 1 }
  else if h : t.slot % 2 = 0 ∧ t.slot ≤ 8 then
    have : t.slot / 2 < 5 := by omega
    { t with kept := t.kept.set (t.slot / 2) (u :: t.kept[t.slot / 2]) }
  else t

/-- The text at one of the five places. -/
def text (t : TextTable) (i : Fin 5) : String :=
  String.ofList (Utf16.decodeLossy t.kept[i].reverse)

/-- Reads up to `n` units into the table, and tells whether they were all there. -/
def fill : Nat → TextTable → EStateM IoError Source (TextTable × Bool)
  | 0, t => pure (t, true)
  | n + 1, t => do
    match ← Source.take 2 with
    | [b₀, b₁] => fill n (t.push (word16 b₀ b₁))
    | _ => pure (t, false)

end TextTable

/-- A word at the cursor, or `none` if the source ends inside it. -/
def takeWord? : EStateM IoError Source (Option UInt32) := do
  return word32At? (← Source.take 4) 0

/-- Reads the chunk at `pos`.  Without a tag, or when the file ends before the table, nothing is found. -/
def readAt (pos : Nat) : EStateM IoError Source (Gd3 × List Finding) := do
  Source.seek pos
  let head ← Source.take 4
  let sum := head.foldl (fun n b => n + b.toNat) 0
  if head.length < 4 ∨ sum ≠ tagSum then return ({}, [.badTag pos sum])
  let some version ← takeWord? | return ({}, [])
  let some length ← takeWord? | return ({}, [])
  let (table, complete) ← TextTable.fill (length.toNat / 2) {}
  let g := {
    trackName := table.text 0, gameName := table.text 1, systemName := table.text 2
    author := table.text 3, releaseDate := table.text 4, version, length }
  return (g, if complete then [] else [.truncated table.slot])

/-- What reading the metadata gave, the source afterwards, and what there was to report. -/
structure Reading where
  result : Except IoError Gd3
  source : Source
  findings : List Finding := []

/-- Reads the chunk that the header announces and puts the cursor back.  The failure to put it back is the one
reported when both fail. -/
def read (h : Header) (s : Source) : Reading :=
  let body : EStateM.Result IoError Source (Gd3 × List Finding) :=
    match h.gd3Start? with
    | none => .ok ({}, []) s
    | some pos => readAt pos s
  match body with
  | .ok (g, findings) s' =>
    match Source.seek s.pos s' with
    | .ok _ s'' => { result := .ok g, source := s'', findings }
    | .error e s'' => { result := .error e, source := s'', findings }
  | .error e s' =>
    match Source.seek s.pos s' with
    | .ok _ s'' => { result := .error e, source := s'' }
    | .error e' s'' => { result := .error e', source := s'' }

end Gd3

end VgmPlayback
