import VgmPlayback.Files.TrackFile
import VgmPlayback.Playlist.Library

/-!
# Folders of tracks

Every file in a folder is a track, in the order of the names; directories are passed over, and so is the
entry that some systems keep for themselves.  A track's file is looked up and unpacked when the track is first
opened.
-/

namespace VgmPlayback.Folder

/-- The bookkeeping entry on removable media. -/
def reservedName : String := "System Volume Information"

/-- The entry is a track. -/
def isTrack (entry : String × FileTree) : Bool := entry.1 != reservedName && entry.2.isFile

/-- The names of the tracks among the entries of a folder, in the order of their code points. -/
def trackNames (entries : List (String × FileTree)) : List String :=
  ((entries.filter isTrack).map Prod.fst).mergeSort fun name other => decide (name ≤ other)

/-- The names of the tracks in the folder at `path`, given what stands there. -/
def read (path : String) (found : Except IoError FileTree) : Except FileError (List String) :=
  match found with
  | .ok (.directory entries) => .ok (trackNames entries)
  | .ok (.file _) => .error (.unreadableFolder path .notADirectory)
  | .error e => .error (.unreadableFolder path e)

/-- Opens the track of a name among the entries of its folder. -/
def openTrack (entries : List (String × FileTree)) (name : String) : Except IoError Source :=
  match entries.lookup name with
  | none => .error .noSuchFile
  | some (.directory _) => .error .isADirectory
  | some (.file bytes) => TrackFile.openNamed name bytes

/-- The library of the tracks of these names in a folder with these entries. -/
def library (names : List String) (entries : List (String × FileTree)) : Library where
  tracks := (names.map fun name =>
    let opened := Thunk.mk fun _ => openTrack entries name
    { name? := some name, contents := fun _ => opened.get : Track }).toArray

end VgmPlayback.Folder
