import VgmPlayback.Playlist.Selector

/-!
# User commands

What the user can type while tracks are played, a command on each line.  Blanks around a line do not count.
-/

namespace VgmPlayback

inductive UserCommand where
  | select (choice : Choice)
  | mode (mode : PlayMode)
  /-- Show the track again. -/
  | metadata
  | quit
deriving DecidableEq, Repr

namespace UserCommand

/-- The command that the characters of a trimmed line mean. -/
def ofChars? : List Char → Option UserCommand
  | 'r' :: ':' :: name => some (.select (.request (String.ofList (Text.trimChars name))))
  | ['+'] => some (.select .next)
  | ['-'] => some (.select .previous)
  | ['*'] => some (.select .random)
  | ['/'] => some (.mode .shuffle)
  | ['.'] => some (.mode .loop)
  | ['>'] => some (.mode .inOrder)
  | ['?'] => some .metadata
  | ['q'] | ['q', 'u', 'i', 't'] => some .quit
  | _ => none

/-- The command on a line, if there is one. -/
def ofLine? (line : String) : Option UserCommand := ofChars? (Text.trimChars line.toList)

end UserCommand

end VgmPlayback
