import Chip8.File.ReadError

/-!
# Directory trees

A tree holds directories and files below a working directory. A path is a list of
names between slashes that is followed from there: an empty name and `.` stay, `..`
goes up, and any other name goes down. Each of these needs a directory to start
from. A path may leave the tree upwards, where nothing is known but that further
directories lie above.
-/

namespace Chip8.File

/-- What stands at a place of a tree. -/
inductive Entry where
  /-- A directory. -/
  | directory
  /-- A file with its contents. -/
  | file (bytes : List UInt8)
  deriving DecidableEq, Repr

/-- A place to which a path can lead. -/
inductive Place where
  /-- The place below the working directory with these names, the innermost first. -/
  | inside (names : List String)
  /-- Some directory above the working directory. -/
  | above
  deriving DecidableEq, Repr

/-- The place that a name leads to. -/
def Place.follow (place : Place) (name : String) : Place :=
  if name = "" ∨ name = "." then place
  else match place with
    | .above => .above
    | .inside names =>
      if name = ".." then
        match names with
        | [] => .above
        | _ :: outer => .inside outer
      else .inside (name :: names)

/-- The directories and files below a working directory. -/
structure Tree where
  /-- What stands at each place, named as in `Place.inside`; the first mention of a
  place counts. -/
  entries : List (List String × Entry)
  deriving DecidableEq, Repr

namespace Tree

/-- The longest name, in bytes. -/
def maxName : Nat := 255

/-- The length, in bytes, from which on a path is too long. -/
def pathLimit : Nat := 4096

/-- A working directory with nothing below it. -/
def empty : Tree := ⟨[]⟩

/-- What stands at a place. -/
def entry? (tree : Tree) : Place → Option Entry
  | .above => some .directory
  | .inside [] => some .directory
  | .inside names => tree.entries.lookup names

/-- The names of a path in order. -/
def names (path : String) : List String := path.splitOn "/"

/-- Where the names of a path are followed from. -/
def origin (path : String) : Place := if path.startsWith "/" then .above else .inside []

/-! ## Building a tree -/

/-- Put directories at a place and at all places it lies below, where nothing stands
yet. -/
def ensureDirectory (tree : Tree) : List String → Tree
  | [] => tree
  | name :: outer =>
    let tree := tree.ensureDirectory outer
    match tree.entry? (.inside (name :: outer)) with
    | some _ => tree
    | none => ⟨(name :: outer, .directory) :: tree.entries⟩

/-- The tree with a directory at a path. -/
def addDirectory (tree : Tree) (path : String) : Tree :=
  match (names path).foldl Place.follow (.inside []) with
  | .above => tree
  | .inside names => tree.ensureDirectory names

/-- The tree with a file at a path. A file that stood there before is replaced. -/
def addFile (tree : Tree) (path : String) (bytes : List UInt8) : Tree :=
  match (names path).foldl Place.follow (.inside []) with
  | .above => tree
  | .inside names => ⟨(names, .file bytes) :: (tree.ensureDirectory names.tail).entries⟩

/-! ## Reading a file -/

/-- Follow one name from a place, which has to be a directory. -/
def descend (tree : Tree) (place : Place) (name : String) : Except ReadError Place :=
  match tree.entry? place with
  | none => .error .notFound
  | some (.file _) => .error .notDirectory
  | some .directory =>
    if maxName < name.utf8ByteSize then .error .nameTooLong
    else if place = .above ∧ name ≠ "" ∧ name ≠ "." ∧ name ≠ ".." then .error .notFound
    else
      let next := Place.follow place name
      match tree.entry? next with
      | none => .error .notFound
      | some _ => .ok next

/-- The contents of the file that a path leads to. -/
def read (tree : Tree) (path : String) : Except ReadError (List UInt8) :=
  if path = "" then .error .notFound
  else if pathLimit ≤ path.utf8ByteSize then .error .nameTooLong
  else
    match (names path).foldlM tree.descend (origin path) with
    | .error error => .error error
    | .ok place =>
      match tree.entry? place with
      | none => .error .notFound
      | some .directory => .error .isDirectory
      | some (.file bytes) => .ok bytes

end Tree

end Chip8.File
