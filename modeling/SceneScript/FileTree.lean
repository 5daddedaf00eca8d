import SceneScript.Table

/-!
# FileTree

Files and directories.  A path is followed name by name, from the root if it starts with a slash and
from the working directory otherwise; `.` stays and `..` goes up.  Names and paths have a greatest
length.  Beyond what the tree itself rules out, the system may refuse any access.  A failed
operation says why and leaves the tree as it is.
-/

namespace SceneScript

/-- Why a file could not be read or written. -/
inductive FileError where
  | notFound
  | notDirectory
  | isDirectory
  /-- A name in the path, or the path as a whole, is too long. -/
  | nameTooLong
  /-- The path holds a NUL character, which no name can. -/
  | nulInPath
  /-- The content is not UTF-8. -/
  | notText
  /-- Any other reason, as the system words it. -/
  | other (reason : String)
  deriving DecidableEq, Repr

/-- The wording of a file error. -/
def FileError.message : FileError → String
  | .notFound     => "No such file or directory (os error 2)"
  | .notDirectory => "Not a directory (os error 20)"
  | .isDirectory  => "Is a directory (os error 21)"
  | .nameTooLong  => "File name too long (os error 36)"
  | .nulInPath    => "file name contained an unexpected NUL byte"
  | .notText      => "stream did not contain valid UTF-8"
  | .other reason => reason

/-- What stands under a name. -/
inductive Entry where
  | file (bytes : ByteArray)
  | directory

/-- The content of a file as a text. -/
def textOfBytes (bytes : ByteArray) : Except FileError String :=
  match String.fromUTF8? bytes with
  | some text => .ok text
  | none      => .error .notText

/-- What the system can be asked to do at a place. -/
inductive Access where
  /-- To follow a path through a directory. -/
  | enter
  | read
  | write
  deriving DecidableEq, Repr

/-- Files and directories, below a root that is a directory.  A place in the tree is given by the
names that lead to it from the root. -/
structure FileTree where
  /-- What stands at a place, by its names joined by slashes. -/
  entries   : Table Entry := {}
  /-- The working directory, from which a path is followed that does not start at the root. -/
  directory : List String := []
  /-- Where the system refuses an access for a reason of its own, such as a missing permission or a
  full disk. -/
  refuses   : Access → List String → Option FileError := fun _ _ => none

namespace FileTree

/-- The names in a path. -/
def names (path : String) : List String :=
  ((path.toList.splitOn '/').filter (· ≠ [])).map String.ofList

/-- The path starts at the root. -/
def isAbsolute (path : String) : Bool :=
  path.toList.head? = some '/'

/-- The path ends in a slash, so it can only mean a directory. -/
def endsInSlash (path : String) : Bool :=
  path.toList.getLast? = some '/'

/-- A name has at most 255 bytes. -/
def maxNameSize : Nat := 255

/-- A path has at most 4095 bytes. -/
def maxPathSize : Nat := 4095

/-- The path can be followed at all: no NUL character is in it and it is neither empty nor too
long. -/
def checkPath (path : String) : Except FileError Unit := do
  if path.toList.contains '\x00' then throw .nulInPath
  if path = "" then throw .notFound
  if maxPathSize < path.utf8ByteSize then throw .nameTooLong

/-- What stands at a place. -/
def entry? (t : FileTree) : List String → Option Entry
  | []    => some .directory
  | place => t.entries.get? ("/".intercalate place)

/-- Stops if the system refuses the access. -/
def allow (t : FileTree) (access : Access) (place : List String) : Except FileError Unit :=
  match t.refuses access place with
  | some cause => .error cause
  | none       => .ok ()

/-- Stops unless a directory stands at the place that can be entered. -/
def enter (t : FileTree) (place : List String) : Except FileError Unit :=
  match t.entry? place with
  | none            => .error .notFound
  | some (.file _)  => .error .notDirectory
  | some .directory => t.allow .enter place

/-- The place that a name leads to from another place, which has to be a directory.  The directory
above the root is the root. -/
def step (t : FileTree) (place : List String) (name : String) : Except FileError (List String) := do
  t.enter place
  if maxNameSize < name.utf8ByteSize then throw .nameTooLong
  match name with
  | "."  => return place
  | ".." => return place.dropLast
  | name => return place ++ [name]

/-- The place that names lead to, from where a path starts. -/
def walk (t : FileTree) (path : String) (names : List String) : Except FileError (List String) := do
  checkPath path
  names.foldlM t.step (if isAbsolute path then [] else t.directory)

/-- The place that a path leads to. -/
def locate (t : FileTree) (path : String) : Except FileError (List String) :=
  t.walk path (names path)

/-- The text of a file. -/
def read (t : FileTree) (path : String) : Except FileError String := do
  let place ← t.locate path
  match t.entry? place with
  | none               => throw .notFound
  | some .directory    =>
    t.allow .read place
    throw .isDirectory
  | some (.file bytes) =>
    if endsInSlash path then throw .notDirectory
    t.allow .read place
    textOfBytes bytes

/-- Something stands at the end of a path. -/
def contains (t : FileTree) (path : String) : Bool :=
  match t.locate path with
  | .error _  => false
  | .ok place =>
    match t.entry? place with
    | none            => false
    | some .directory => true
    | some (.file _)  => !endsInSlash path

/-- The tree with a text as the whole content of a file.  A path that ends in a slash is refused
before its last name is looked up. -/
def write (t : FileTree) (path text : String) : Except FileError FileTree := do
  if endsInSlash path then
    t.enter (← t.walk path (names path).dropLast)
    throw .isDirectory
  let place ← t.locate path
  match t.entry? place with
  | some .directory => throw .isDirectory
  | _               =>
    t.allow .write place
    return { t with entries := t.entries.insert ("/".intercalate place) (.file text.toUTF8) }

end FileTree

end SceneScript
