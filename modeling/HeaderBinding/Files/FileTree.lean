import HeaderBinding.Error
import HeaderBinding.Path
import HeaderBinding.Text.Blank

/-!
# Trees of Files

The files a run works on, as a value: which places are taken, by a directory or by a file with its
content, and which directory relative paths start from. Reading and listing look at the tree,
writing gives a new one, so a run over files is a function like any other.

A path is followed part by part from the root or from the working directory. Every part but the last
has to lead to a directory; an empty part and a dot stay where they are, and two dots go one
directory up, which at the root is the root itself.

A tree holds what a run over an ordinary disk meets, and leaves out the rest. There are no links and
no devices, so a place is one directory or one file and can be reached by one path without dots.
Every entry may be read, written and listed, so there are no missing permissions, no full disk, and
no listing that fails half-way. Names are text: a name that is no UTF-8 stands as it is shown, with
its bad bytes replaced.

## Main definitions

* `FileTree`: The places and the working directory.
* `FileTree.locate`: The place a path leads to.
* `FileTree.readText`, `FileTree.list`: Reading a file and listing a directory.
* `FileTree.createDirectories`, `FileTree.write`: Trees with more in them.
-/

namespace HeaderBinding

/-- The names from a place up to the root. -/
abbrev Location := List String

/-- What a file holds: a text, or bytes that are no UTF-8 text. -/
inductive FileContent where
  | text (value : String)
  | binary
deriving DecidableEq, Inhabited, Repr

/-- What a place is taken by. -/
inductive FileEntry where
  | directory
  | file (content : FileContent)
deriving DecidableEq, Inhabited, Repr

/-- The files a run works on. -/
structure FileTree where
  /-- The places that are taken, apart from the root. -/
  entries : List (Location × FileEntry) := []
  /-- Where relative paths start. -/
  workingDirectory : Location := []
deriving Inhabited, Repr

namespace FileEntry

/-- A file and not a directory. -/
def isFile : FileEntry → Bool
  | file _ => true
  | directory => false

end FileEntry

namespace Path

/-- The pieces of a path between its slashes. -/
def pieces (path : Path) : List String :=
  (Text.splitWhere (· == '/') path.toList).map String.ofList

end Path

namespace FileTree

/-- The greatest number of bytes in the name of a place. -/
def maxNameBytes : Nat := 255

/-- The greatest number of bytes in a path. -/
def maxPathBytes : Nat := 4095

/-- What a place is taken by. The root is always there. -/
def entryAt? (t : FileTree) : Location → Option FileEntry
  | [] => some .directory
  | location => t.entries.lookup location

/-- The tree with a place taken by `entry`, whatever was there before. -/
def put (t : FileTree) (location : Location) (entry : FileEntry) : FileTree :=
  { t with entries := (location, entry) :: t.entries.filter (·.1 != location) }

/-- Follow one piece of a path. -/
def follow (t : FileTree) (location : Location) (piece : String) :
    Except FileError Location :=
  match t.entryAt? location with
  | none => .error .notFound
  | some (.file _) => .error .notADirectory
  | some .directory =>
    if piece = "" ∨ piece = "." then .ok location
    else if piece = ".." then .ok location.tail
    else if maxNameBytes < piece.utf8ByteSize then .error .nameTooLong
    else if (t.entryAt? (piece :: location)).isSome then .ok (piece :: location)
    else .error .notFound

/-- Follow several pieces of a path from the place it starts at. -/
def followAll (t : FileTree) (path : Path) (pieces : List String) : Except FileError Location :=
  if path.isEmpty then .error .notFound
  else if path.toList.contains '\x00' then .error .nulInName
  else if maxPathBytes < path.utf8ByteSize then .error .nameTooLong
  else pieces.foldlM t.follow (if path.isAbsolute then [] else t.workingDirectory)

/-- The place a path leads to. -/
def locate (t : FileTree) (path : Path) : Except FileError Location :=
  t.followAll path path.pieces

/-- What the place is taken by that a path leads to. -/
def entry (t : FileTree) (path : Path) : Except FileError FileEntry := do
  match t.entryAt? (← t.locate path) with
  | some e => pure e
  | none => .error .notFound

/-- The path leads to something. -/
def holds (t : FileTree) (path : Path) : Bool :=
  match t.entry path with
  | .ok _ => true
  | .error _ => false

/-- The path leads to a file. -/
def isFile (t : FileTree) (path : Path) : Bool :=
  match t.entry path with
  | .ok (.file _) => true
  | _ => false

/-- The path leads to a directory. -/
def isDirectory (t : FileTree) (path : Path) : Bool :=
  match t.entry path with
  | .ok .directory => true
  | _ => false

/-- The text of a file. -/
def readText (t : FileTree) (path : Path) : Except FileError String := do
  match ← t.entry path with
  | .directory => .error .isADirectory
  | .file .binary => .error .invalidText
  | .file (.text value) => pure value

/-- What stands directly in a directory, in no particular order. -/
def list (t : FileTree) (path : Path) : Except FileError (List (String × FileEntry)) := do
  let location ← t.locate path
  match t.entryAt? location with
  | some .directory => pure (t.entries.filterMap fun
      | (name :: above, e) => if above == location then some (name, e) else none
      | ([], _) => none)
  | some (.file _) => .error .notADirectory
  | none => .error .notFound

/-- Where a path puts something new: an existing directory, and the name in it. A path that ends in
    dots or consists of slashes names nothing new. Slashes at the end are passed over. -/
def slot (t : FileTree) (path : Path) : Except FileError (Location × Option String) := do
  let pieces := (path.pieces.reverse.dropWhile (·.isEmpty)).reverse
  let directory ← t.followAll path (pieces.dropLast ++ ["."])
  match pieces.getLast? with
  | none | some "." | some ".." => pure (directory, none)
  | some name =>
    if maxNameBytes < name.utf8ByteSize then .error .nameTooLong
    else pure (directory, some name)

/-- The tree with one more directory. -/
def createDirectory (t : FileTree) (path : Path) : Except FileError FileTree := do
  match ← t.slot path with
  | (_, none) => .error .alreadyExists
  | (directory, some name) =>
    if (t.entryAt? (name :: directory)).isSome then .error .alreadyExists
    else pure (t.put (name :: directory) .directory)

/-- The tree with one more directory, unless the path leads to one already. -/
def ensureDirectory (t : FileTree) (path : Path) : Except FileError FileTree :=
  match t.createDirectory path with
  | .ok t => .ok t
  | .error e => if t.isDirectory path then .ok t else .error e

/-- The tree with a directory and all directories above it that are missing. -/
def createDirectories (t : FileTree) (path : Path) : Except FileError FileTree :=
  if path.isEmpty then .ok t
  else match t.createDirectory path with
    | .ok t => .ok t
    | .error .notFound =>
      match h : path.parent? with
      | none => .error .treeNotCreated
      | some parent =>
        have := Path.length_lt_of_parent?_eq_some h
        match t.createDirectories parent with
        | .ok t => t.ensureDirectory path
        | .error e => .error e
    | .error e => if t.isDirectory path then .ok t else .error e
termination_by path.length

/-- The tree with a file of that content, in place of the file that was there. -/
def write (t : FileTree) (path : Path) (content : FileContent) : Except FileError FileTree := do
  match ← t.slot path with
  | (_, none) => .error .isADirectory
  | (directory, some name) =>
    if path.toList.getLast? == some '/' then .error .isADirectory
    else match t.entryAt? (name :: directory) with
      | some .directory => .error .isADirectory
      | _ => pure (t.put (name :: directory) (.file content))

end FileTree

end HeaderBinding
