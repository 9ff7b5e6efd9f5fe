import VgmPlayback.Text.Ligature

/-!
# Display width

The columns that a text takes on a terminal.  A character has its width alone, unless it belongs to a
sequence: a sign with a presentation selector, a flag, signs that a joiner makes one, a ligature.  The text is
read from its end, and `Following` is what a character has to know of the text after it; the columns of a
character in a sequence are those that the sequence gains by it, so they may be fewer than none.
-/

namespace VgmPlayback.Text

/-- What stands after a character, as far as its width depends on it. -/
inductive Following where
  /-- The end, or a character that is in no sequence. -/
  | plain
  /-- A selector with no base yet: of emoji, or of text. -/
  | selector (asEmoji : Bool)
  /-- A ligature's later part; `asText` and `asEmoji` tell the selectors in front of it. -/
  | ligature (part : Ligature) (asText asEmoji : Bool)
  | emoji
  | modifier
  /-- Flag halves, one or more. -/
  | flagHalf
  | flagHalves
  /-- A joiner with an emoji after it; `selected` tells an emoji selector in front. -/
  | joined (selected : Bool)
  /-- A keycap in front of such a joiner. -/
  | keycap (selected : Bool)
  /-- Flag halves in front of such a joiner: one, an even number, or an odd number above one. -/
  | joinedHalf
  | joinedFlags
  | joinedFlagsHalf
  /-- The last `count` letters of a region's name and its end, in front of such a joiner. -/
  | tagLetters (count : Nat)
  /-- Likewise, with `count` digits in front of the letters. -/
  | tagDigits (count : Nat)
deriving DecidableEq, Repr

namespace Following

/-- What a character that goes on with no sequence is for the text in front of it. -/
def ofStart (c : Nat) : Following :=
  if isFlagHalf c then flagHalf
  else if isModifier c then modifier
  else if emojiByDefault.has c then emoji
  else
    match Ligature.ofLetter? c with
    | some part => ligature part false false
    | none => plain

/-- An emoji selector is in front. -/
def selectsEmoji : Following → Bool
  | selector asEmoji | ligature _ _ asEmoji => asEmoji
  | joined selected | keycap selected => selected
  | _ => false

/-- A text selector is in front, of a ligature also behind an emoji selector. -/
def selectsText : Following → Bool
  | selector asEmoji => !asEmoji
  | ligature _ asText _ => asText
  | _ => false

/-- The rest without its emoji selector, when the character in front is no base of one. -/
def dropEmoji : Following → Following
  | ligature part asText true => ligature part asText false
  | selector true | joined true | keycap true => plain
  | after => after

/-- The rest without its text selector, likewise. -/
def dropText : Following → Following
  | ligature part _ asEmoji => ligature part false asEmoji
  | selector false => plain
  | after => after

def withEmoji : Following → Following
  | ligature part asText _ => ligature part asText true
  | joined _ => joined true
  | keycap _ => keycap true
  | _ => selector true

def withText : Following → Following
  | ligature part _ asEmoji => ligature part true asEmoji
  | _ => selector false

/-- A joiner is in front, or a keycap and a joiner, so that an emoji there gains no columns. -/
def isJoined : Following → Bool
  | joined _ | keycap _ => true
  | _ => false

/-- The columns of `c` when it goes on with an emoji sequence, and what stands there then.  A joiner makes one
sign of a flag and what follows it.  The halves in front of it pair up from the first on, so the last two are
a flag only if they are even in number: an odd half gives back what the two lost. -/
def extend (c : Nat) : Following → Option (Int × Following)
  | emoji => if c = joiner then some (0, joined false) else none
  | modifier =>
    if modifierBases.has c then some (0, emoji)
    else if c = joiner then some (0, joined false)
    else none
  | flagHalf => if isFlagHalf c then some (1, flagHalves) else none
  | flagHalves =>
    if isFlagHalf c then some (1, flagHalves)
    else if c = joiner then some (0, joined false)
    else none
  | joined _ =>
    if c = enclosingKeycap then some (0, keycap false)
    else if isFlagHalf c then some (1, joinedHalf)
    else if isModifier c then some (0, modifier)
    else if c = cancelTag then some (0, tagLetters 0)
    else if emojiByDefault.has c then some (0, emoji)
    else none
  | keycap _ => none
  | joinedHalf => if isFlagHalf c then some (-1, joinedFlags) else none
  | joinedFlags =>
    if isFlagHalf c then some (3, joinedFlagsHalf)
    else if c = joiner then some (0, joined false)
    else none
  | joinedFlagsHalf =>
    if isFlagHalf c then some (-1, joinedFlags)
    else if c = joiner then some (0, joined false)
    else none
  | tagLetters count =>
    if isTagLetter c && count < 6 then some (0, tagLetters (count + 1))
    else if isTagDigit c && count < 5 then some (0, tagDigits 1)
    else if c = blackFlag && 3 ≤ count then some (0, emoji)
    else none
  | tagDigits count =>
    if isTagDigit c && count < 3 then some (0, tagDigits (count + 1))
    else if c = blackFlag && count = 3 then some (0, emoji)
    else none
  | plain | selector _ | ligature _ _ _ => none

/-- The columns of `c` when no selector after it is its own, and what stands there then. -/
def join (c : Nat) : Following → Int × Following
  | ligature part _ _ =>
    match part.before c with
    | some (columns, some part) => (columns, ligature part false false)
    | some (columns, none) => (columns, plain)
    | none => (widthAlone c, ofStart c)
  | after => (after.extend c).getD (widthAlone c, ofStart c)

/-- The columns of `c` in front of `after`, and what stands there then. -/
def before (c : Nat) (after : Following) : Int × Following :=
  if after.selectsEmoji && startsEmoji c then (if after.isJoined then 0 else 2, emoji)
  else
    let after := after.dropEmoji
    if c ≤ 0xA0 then (1, plain)
    else if c = emojiSelector then (0, after.withEmoji)
    else if c = textSelector then (0, after.withText)
    else if after.selectsText && narrowsToText c then (1, plain)
    else join c after.dropText

end Following

/-- The columns of the characters, and what they are for a text before them. -/
def measure (text : List Char) : Int × Following :=
  text.foldr (fun c rest => let start := rest.2.before c.toNat; (start.1 + rest.1, start.2)) (0, .plain)

/-- The number of columns of a text. -/
def displayWidth (s : String) : Nat := (measure s.toList).1.toNat

/-- `s` followed by blanks up to `width` columns. -/
def padToWidth (width : Nat) (s : String) : String :=
  s ++ String.ofList (List.replicate (width - displayWidth s) ' ')

example : displayWidth "曲.vgm" = 6 := by decide +kernel

example : displayWidth "🇯🇵" = 2 ∧ displayWidth "👩‍🎤" = 2 := by decide +kernel

end VgmPlayback.Text
