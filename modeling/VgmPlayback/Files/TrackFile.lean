import VgmPlayback.Files.FileTree
import VgmPlayback.Storage.Source

/-!
# Track files

A track file holds a track as it is or as a gzip member.  Which of the two it is shows in the extension of its
name, and for a file that is loaded as a whole also in its first two bytes.
-/

namespace VgmPlayback

/-- Why a file or a folder could not be used. -/
inductive FileError where
  | unreadable (path : String) (cause : IoError)
  | unreadableFolder (path : String) (cause : IoError)
  | notUnpacked (cause : Gzip.Error)
deriving DecidableEq, Repr

/-- The messages of the error and of what caused it. -/
def FileError.chain : FileError → List String
  | unreadable path cause => [s!"failed to read file: {path}", cause.message]
  | unreadableFolder path cause => [s!"failed to read directory: {path}", cause.message]
  | notUnpacked cause => ["gzip decompression failed", cause.message]

namespace TrackFile

/-- The last part of a path, unless it leads upwards. -/
def name? (path : String) : Option String :=
  match ((path.splitOn "/").filter fun part => part ≠ "" ∧ part ≠ ".").getLast? with
  | some ".." => none
  | name? => name?

/-- What follows the last dot of a name.  A name whose only dot comes first has no extension. -/
def extension? (name : String) : Option String :=
  let backwards := name.toList.reverse
  match backwards.dropWhile (· ≠ '.') with
  | [] | [_] => none
  | _ => some (String.ofList (backwards.takeWhile (· ≠ '.')).reverse)

/-- The extension of the path is that of a gzip file, in letters of either case. -/
def isGzipPath (path : String) : Bool :=
  match (name? path).bind extension? with
  | none => false
  | some extension => extension.toLower = "vgz" ∨ extension.toLower = "gz"

/-- The track in a file of these bytes, loaded as a whole. -/
def unpack (path : String) (bytes : List UInt8) : Except FileError (List UInt8) :=
  if isGzipPath path || Gzip.hasMagic bytes then (Gzip.gunzip bytes).mapError .notUnpacked else .ok bytes

/-- The track in the file at `path`, given what the file holds. -/
def load (path : String) (content : Except IoError (List UInt8)) : Except FileError (List UInt8) :=
  match content with
  | .error e => .error (.unreadable path e)
  | .ok bytes => unpack path bytes

/-- A source over the track in a file of this name. -/
def openNamed (name : String) (bytes : List UInt8) : Except IoError Source :=
  if isGzipPath name then
    match Gzip.gunzip bytes with
    | .ok bytes => .ok (.ofBytes bytes)
    | .error e => .error (.gzip e)
  else .ok (.ofBytes bytes)

end TrackFile

end VgmPlayback
