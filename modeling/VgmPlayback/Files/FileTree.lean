import VgmPlayback.Storage.Error

/-!
# File trees

A `FileTree` is a file with its bytes or a directory with its named entries.  `find` follows a path from the
root part by part, as an operating system does: an empty part and `.` stay where they are, `..` goes up, and
only a directory can be passed through.  Paths and names have a largest size; the fault that comes first on the
way is the one reported.  The tree is all that is known: around it there is an empty directory.
-/

namespace VgmPlayback

inductive FileTree where
  | file (bytes : List UInt8)
  | directory (entries : List (String × FileTree))

namespace FileTree

instance : Inhabited FileTree := ⟨directory []⟩

/-- What a directory holds; a file holds nothing. -/
def entries : FileTree → List (String × FileTree)
  | file _ => []
  | directory entries => entries

def isFile : FileTree → Bool
  | file _ => true
  | directory _ => false

/-- The bytes of the longest name that a directory can hold. -/
def maxNameBytes : Nat := 255

/-- The bytes of the longest path that can be followed. -/
def maxPathBytes : Nat := 4095

/-- Follows the parts of a path; `above` are the directories passed on the way, the nearest first. -/
def walk (above : List FileTree) : FileTree → List String → Except IoError FileTree
  | node, [] => .ok node
  | file _, _ :: _ => .error .notADirectory
  | directory entries, part :: parts =>
    if part = "" ∨ part = "." then walk above (directory entries) parts
    else if part = ".." then
      match above with
      | [] => walk [] (directory []) parts
      | parent :: above => walk above parent parts
    else if maxNameBytes < part.utf8ByteSize then .error .nameTooLong
    else
      match entries.lookup part with
      | none => .error .noSuchFile
      | some node => walk (directory entries :: above) node parts

/-- What stands at a path. -/
def find (root : FileTree) (path : String) : Except IoError FileTree :=
  if '\x00' ∈ path.toList then .error .nulInPath
  else if path = "" then .error .noSuchFile
  else if maxPathBytes < path.utf8ByteSize then .error .nameTooLong
  else walk [] (if path.toList.head? = some '/' then directory [] else root) (path.splitOn "/")

/-- The bytes of the file at a path. -/
def bytesAt (root : FileTree) (path : String) : Except IoError (List UInt8) :=
  match root.find path with
  | .ok (file bytes) => .ok bytes
  | .ok (directory _) => .error .isADirectory
  | .error e => .error e

/-- The places that the parts of a path lead to from `place`, one after the other.  A place is told by the names
on the way to it from the root. -/
def placesFrom (place : List String) : List String → List (List String)
  | [] => []
  | part :: parts =>
    if part = "" ∨ part = "." then placesFrom place parts
    else
      let next := if part = ".." then place.dropLast else place ++ [part]
      next :: placesFrom next parts

/-- The places that a path leads through, and the one where it ends. -/
def placesOf (path : String) : List (List String) × List String :=
  let places := placesFrom [] (path.splitOn "/")
  (places.dropLast, places.getLastD [])

/-- The entries with `name` standing for `node`. -/
def setEntry (name : String) (node : FileTree) : List (String × FileTree) → List (String × FileTree)
  | [] => [(name, node)]
  | (other, old) :: rest =>
    if other = name then (name, node) :: rest else (other, old) :: setEntry name node rest

/-- Puts a file at the end of the parts, with the directories on the way. -/
def putFile (bytes : List UInt8) : List String → FileTree → FileTree
  | [], _ => file bytes
  | name :: parts, tree =>
    let below := (tree.entries.lookup name).getD (directory [])
    directory (setEntry name (putFile bytes parts below) tree.entries)

/-- Makes the directories named by the parts, one in the other. -/
def makeDirectory : List String → FileTree → FileTree
  | [], tree => directory tree.entries
  | name :: parts, tree =>
    let below := (tree.entries.lookup name).getD (directory [])
    directory (setEntry name (makeDirectory parts below) tree.entries)

/-- Removes what stands at the end of the parts. -/
def remove : List String → FileTree → FileTree
  | [], tree => tree
  | [name], tree => directory (tree.entries.filter fun entry => entry.1 ≠ name)
  | name :: parts, tree =>
    match tree.entries.lookup name with
    | none => tree
    | some below => directory (setEntry name (remove parts below) tree.entries)

/-- Makes the directories that the path leads through, also those that it leaves again. -/
def makeWay (path : String) (tree : FileTree) : FileTree :=
  (placesOf path).1.foldl (fun tree place => tree.makeDirectory place) tree

/-- Puts a file at a path, with the directories on the way. -/
def addFile (path : String) (bytes : List UInt8) (tree : FileTree) : FileTree :=
  (tree.makeWay path).putFile bytes (placesOf path).2

/-- Makes the directory at a path, with those on the way. -/
def addDirectory (path : String) (tree : FileTree) : FileTree :=
  (tree.makeWay path).makeDirectory (placesOf path).2

/-- Removes what stands at a path. -/
def removeAt (path : String) (tree : FileTree) : FileTree := tree.remove (placesOf path).2

end FileTree

end VgmPlayback
