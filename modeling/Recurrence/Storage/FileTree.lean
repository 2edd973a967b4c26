import Recurrence.Storage.FileSystem

/-!
# Files in directories

In a `FileTree` files and directories have their places, from a root on.  A path that begins with a slash
is followed from the root, and every other one from the directory that is the current one.  The parts of
a path stay where they are if they are empty or one dot, lead up if they are two dots, and else are the
names of directories, but for the last one, which may be that of a file.  Names have at most 255 bytes, and
paths 4095.

Writing to a file empties it, or makes it, and then fills it as far as there is room.  No directory is made
or removed.
-/

namespace Recurrence

/-- The place of a file or directory: its name and those of the directories around it, from the inside
out. -/
abbrev Location := List String

/-- Files, and the directories in which they are. -/
structure FileTree where
  /-- The directories apart from the root. -/
  directories : List Location
  files : List (Location × Bytes)
  /-- The current directory. -/
  here : Location
  /-- How many bytes there can be in all files together, if not any number. -/
  capacity : Option Nat

namespace FileTree

/-- A tree without files, in which the current directory is not the root. -/
def empty : FileTree :=
  ⟨[["home"]], [], ["home"], none⟩

/-- Whether there is a directory at a place. -/
def hasDirectory (tree : FileTree) (place : Location) : Bool :=
  place = [] || place ∈ tree.directories

/-- The contents of the file at a place. -/
def contents? (tree : FileTree) (place : Location) : Option Bytes :=
  tree.files.lookup place

/-- The tree after the file at a place was given new contents. -/
def put (tree : FileTree) (place : Location) (contents : Bytes) : FileTree :=
  { tree with files := (place, contents) :: tree.files.filter fun file => file.1 ≠ place }

/-- The number of bytes in all files. -/
def size (tree : FileTree) : Nat :=
  tree.files.foldr (fun file size => file.2.length + size) 0

/-! ### Paths -/

/-- A part of a path that stays where it is. -/
def staysPut (part : List Char) : Bool :=
  part = [] || part = ['.']

/-- A part of a path that leads to the directory above. -/
def leadsUp (part : List Char) : Bool :=
  part = ['.', '.']

/-- The greatest number of bytes of a name. -/
def maxNameBytes : Nat := 255

/-- The greatest number of bytes of a path. -/
def maxPathBytes : Nat := 4095

/-- Why a path cannot be followed, wherever it leads. -/
def pathFault? (path : String) : Option FileFault :=
  if '\x00' ∈ path.toList then some .zeroInPath
  else if maxPathBytes < (Text.utf8 path.toList).length then some .nameTooLong
  else none

/-- The place of the file to which the parts of a path lead from a directory, or why they lead to none.
No file is created where slashes behind the last name say that it is meant for a directory. -/
def follow (tree : FileTree) (creating : Bool) (around : Location) :
    List (List Char) → Except FileFault Location
  | [] => .error .isDirectory
  | part :: rest =>
    let place := String.ofList part :: around
    if staysPut part then tree.follow creating around rest
    else if leadsUp part then tree.follow creating around.tail rest
    else if creating ∧ rest ≠ [] ∧ rest.all List.isEmpty then .error .isDirectory
    else if maxNameBytes < (Text.utf8 part).length then .error .nameTooLong
    else if tree.hasDirectory place then tree.follow creating place rest
    else if rest = [] then .ok place
    else .error (if (tree.contents? place).isSome then .notDirectory else .notFound)

/-- The place of the file to which a path leads, or why it leads to none. -/
def locate (tree : FileTree) (creating : Bool) (path : String) : Except FileFault Location :=
  match pathFault? path with
  | some fault => .error fault
  | none =>
    let start := if path.toList.head? = some '/' then [] else tree.here
    tree.follow creating start (path.toList.splitOn '/')

/-! ### Reading and writing -/

/-- Reads a file.  A directory can be opened, so the fault is found only when the first byte is wanted. -/
def read (tree : FileTree) (path : String) : Except FileFailure Bytes :=
  match tree.locate false path with
  | .error fault => .error ⟨if fault = .isDirectory then .transfer else .opening, fault⟩
  | .ok place =>
    match tree.contents? place with
    | some contents => .ok contents
    | none => .error ⟨.opening, .notFound⟩

/-- Fills a file that was emptied, as far as there is room. -/
def fill (tree : FileTree) (place : Location) (contents : Bytes) : Except FileFailure Unit × FileTree :=
  let size := (tree.put place []).size
  match tree.capacity with
  | some capacity =>
    if size + contents.length ≤ capacity then (.ok (), tree.put place contents)
    else (.error ⟨.transfer, .noSpace⟩, tree.put place (contents.take (capacity - size)))
  | none => (.ok (), tree.put place contents)

/-- Writes a file. -/
def write (tree : FileTree) (path : String) (contents : Bytes) : Except FileFailure Unit × FileTree :=
  match tree.locate true path with
  | .error fault => (.error ⟨.opening, fault⟩, tree)
  | .ok place => tree.fill place contents

/-- A tree whose files are read and written one after the other. -/
def fileSystem : FileSystem (StateM FileTree) where
  read path := fun tree => (tree.read path, tree)
  write path contents := fun tree => tree.write path contents

end FileTree

end Recurrence
