import VgmPlayback.Text.CharWidth
import VgmPlayback.Text.Emoji

/-!
# Ligatures

Letters that are written as one sign, and so take fewer columns than each of them alone.  A text is read from
its end: a `Ligature` is the later part of such a sign, and `Ligature.before` says what the code point in
front of it does.
-/

namespace VgmPlayback.Text

/-- The Arabic letters of the form of alef, which make one sign with a lam in front of them. -/
def alefs : CodePoints :=
  [(0x622, 0x623), (0x625, 0x625), (0x627, 0x627), (0x671, 0x673), (0x675, 0x675), (0x773, 0x774),
   (0x870, 0x882)]

/-- The Arabic letters of the form of lam. -/
def lams : CodePoints :=
  [(0x644, 0x644), (0x6B5, 0x6B8), (0x76A, 0x76A), (0x8A6, 0x8A6), (0x8C7, 0x8C7)]

/-- The Khmer letters that have a form below the line. -/
def khmerLetters : CodePoints :=
  [(0x1780, 0x1782), (0x1784, 0x1787), (0x1789, 0x178C), (0x178E, 0x1793), (0x1795, 0x1798),
   (0x179B, 0x179D), (0x17A0, 0x17A0), (0x17A2, 0x17A2), (0x17A7, 0x17A7), (0x17AB, 0x17AC),
   (0x17AF, 0x17AF)]

def tifinaghConsonants : CodePoints :=
  [(0x2D31, 0x2D65), (0x2D6F, 0x2D6F)]

/-- The ignorable marks, which may stand inside a ligature; most are variation selectors. -/
def ignorableMarks : CodePoints :=
  [(0x34F, 0x34F), (0x17B4, 0x17B5), (0x180B, 0x180D), (0x180F, 0x180F), (0xFE00, 0xFE0F),
   (0xE0100, 0xE01EF)]

/-- The code points without a column at which Arabic letters stop joining. -/
def breaksJoining : CodePoints :=
  [(0x605, 0x605), (0x890, 0x891), (0x8E2, 0x8E2), (0x9BE, 0x9BE), (0x9D7, 0x9D7), (0xB3E, 0xB3E),
   (0xB57, 0xB57), (0xBBE, 0xBBE), (0xBD7, 0xBD7), (0xCC0, 0xCC0), (0xCC2, 0xCC2), (0xCC7, 0xCC8),
   (0xCCA, 0xCCB), (0xCD5, 0xCD6), (0xD3E, 0xD3E), (0xD4E, 0xD4E), (0xD57, 0xD57), (0xDCF, 0xDCF),
   (0xDDF, 0xDDF), (0x1160, 0x11FF), (0x180E, 0x180E), (0x1B35, 0x1B35), (0x1B3B, 0x1B3B),
   (0x1B3D, 0x1B3D), (0x1B43, 0x1B43), (0x200C, 0x200D), (0x2065, 0x2069), (0x302E, 0x302F),
   (0x3164, 0x3164), (0xA8FA, 0xA8FA), (0xD7B0, 0xD7C6), (0xD7CB, 0xD7FB), (0xFF9E, 0xFFA0),
   (0xFFF0, 0xFFF8), (0x111C2, 0x111C3), (0x1133E, 0x1133E), (0x11357, 0x11357), (0x114B0, 0x114B0),
   (0x114BD, 0x114BD), (0x115AF, 0x115AF), (0x11930, 0x11930), (0x1193F, 0x1193F), (0x11941, 0x11941),
   (0x11A3A, 0x11A3A), (0x11A84, 0x11A89), (0x11D46, 0x11D46), (0x11F02, 0x11F02), (0x1D165, 0x1D165),
   (0x1D16E, 0x1D172), (0xE0000, 0xE0000), (0xE0002, 0xE001F), (0xE0080, 0xE00FF), (0xE01F0, 0xE0FFF)]

/-- The later part of a ligature.  A `joined` part has a joiner in front of it. -/
inductive Ligature where
  | alef
  | lamed
  | joinedLamed
  | khmer
  | bugineseYa
  | joinedBugineseYa
  /-- The vowel sign i and ya, with a joiner between them. -/
  | bugineseIYa
  | tifinagh
  | joinedTifinagh
  /-- A consonant with the Tifinagh joiner in front of it. -/
  | stackedTifinagh
  | lisuTone
  | orkhonI
  | joinedOrkhonI
deriving DecidableEq, Repr

namespace Ligature

/-- The ligature that a letter may end. -/
def ofLetter? (c : Nat) : Option Ligature :=
  if alefs.has c then some alef
  else if c = 0x5DC then some lamed
  else if khmerLetters.has c then some khmer
  else if c = 0x1A10 then some bugineseYa
  else if tifinaghConsonants.has c then some tifinagh
  else if c = 0xA4FC || c = 0xA4FD then some lisuTone
  else if c = 0x10C03 then some orkhonI
  else none

/-- The part with a joiner in front of it. -/
def joined : Ligature → Ligature
  | lamed => joinedLamed
  | bugineseYa => joinedBugineseYa
  | tifinagh => joinedTifinagh
  | orkhonI => joinedOrkhonI
  | part => part

/-- The columns of the letter `c` that joins the part after it, and the part that the two are together. -/
def joinLetter (c : Nat) : Ligature → Option (Int × Option Ligature)
  | alef =>
    if lams.has c then some (0, none)
    else if widthAlone c = 0 && !breaksJoining.has c then some (0, some alef)
    else none
  | joinedLamed => if c = 0x5D0 then some (0, none) else none
  | khmer => if c = 0x17D2 then some (-1, none) else none
  | joinedBugineseYa => if c = 0x1A17 then some (0, some bugineseIYa) else none
  | bugineseIYa => if c = 0x1A15 then some (0, none) else none
  | tifinagh => if c = 0x2D7F then some (1, some stackedTifinagh) else none
  | joinedTifinagh =>
    if c = 0x2D7F then some (1, some stackedTifinagh)
    else if tifinaghConsonants.has c then some (0, none)
    else none
  | stackedTifinagh => if tifinaghConsonants.has c then some (-1, none) else none
  | lisuTone => if 0xA4F8 ≤ c && c ≤ 0xA4FB then some (0, none) else none
  | joinedOrkhonI => if c = 0x10C32 then some (0, none) else none
  | lamed | bugineseYa | orkhonI => none

/-- The columns of the code point `c` in front of the part, and the part that stands there then; `none` where
`c` has nothing to do with it.  A Khmer coeng puts the letter after it below the line and so takes back that
letter's column; a consonant stacked on another takes back the column of the joiner between them. -/
def before (c : Nat) (part : Ligature) : Option (Int × Option Ligature) :=
  if part ≠ alef ∧ c = joiner then some (0, some part.joined)
  else if part ≠ alef ∧ ignorableMarks.has c then some (0, some part)
  else part.joinLetter c

end Ligature

end VgmPlayback.Text
