import VgmPlayback.Files.Gzip

/-!
# Storage errors

What can go wrong when a track is opened or read.  Each error has a kind, by which callers tell errors that
may be retried or that mean the end of the data, and a message.
-/

namespace VgmPlayback

/-- The kinds of storage error. -/
inductive ErrorKind where
  | interrupted
  | unexpectedEof
  | permissionDenied
  | invalidInput
  | invalidFilename
  | notFound
  | notADirectory
  | isADirectory
  | other
deriving DecidableEq, Repr

inductive IoError where
  /-- The device failed to read at `pos`. -/
  | readFault (kind : ErrorKind) (pos : Nat)
  /-- The device failed to move to `pos`. -/
  | seekFault (kind : ErrorKind) (pos : Nat)
  /-- The `attempt`-th opening of a track failed; attempts count from 1. -/
  | openFault (attempt : Nat)
  /-- The library has no track of this number. -/
  | noTrack (index : Nat)
  | noSuchFile
  | notADirectory
  | isADirectory
  | nameTooLong
  /-- A path holds the character NUL. -/
  | nulInPath
  /-- Any other refusal of the system, with the system's own text. -/
  | system (text : String)
  | gzip (cause : Gzip.Error)
deriving DecidableEq, Repr

namespace IoError

def kind : IoError → ErrorKind
  | readFault kind _ | seekFault kind _ => kind
  | openFault _ | system _ => .other
  | noTrack _ | noSuchFile => .notFound
  | notADirectory => .notADirectory
  | isADirectory => .isADirectory
  | nameTooLong => .invalidFilename
  | nulInPath => .invalidInput
  | gzip .endOfFile | gzip .incompleteStream => .unexpectedEof
  | gzip _ => .invalidInput

def message : IoError → String
  | readFault _ pos => s!"injected read fault at {pos}"
  | seekFault _ pos => s!"injected seek fault at {pos}"
  | openFault attempt => s!"injected open fault {attempt}"
  | noTrack index => s!"no track at index {index}"
  | noSuchFile => "No such file or directory (os error 2)"
  | notADirectory => "Not a directory (os error 20)"
  | isADirectory => "Is a directory (os error 21)"
  | nameTooLong => "File name too long (os error 36)"
  | nulInPath => "file name contained an unexpected NUL byte"
  | system text => text
  | gzip cause => cause.message

end IoError

end VgmPlayback
