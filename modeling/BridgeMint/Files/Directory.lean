import BridgeMint.Bytes
import BridgeMint.Files.Path

/-!
# A directory of files

A directory as a value: the files in it and below it with their contents.  A directory below it exists
if a file lies in it.  Paths are taken from this directory.  Of what lies outside, the directories
above it are known and some that every system has, with the files that have been put there, and the
null device, which is always empty and keeps nothing.
-/

namespace BridgeMint

/-- Where a path has come to. -/
structure Place where
  /-- Whether the names start at the topmost directory. -/
  fromTop : Bool
  /-- The names that lead there.  From a directory that is not the topmost one they may start with
  steps to the directory above. -/
  names : List String
  deriving DecidableEq, Repr

namespace Place

/-- Whether the place is the directory that paths are taken from or one above it. -/
def isAbove (place : Place) : Bool :=
  !place.fromTop && place.names.all (· == FilePath.parent)

/-- The place above; nothing is above the topmost directory. -/
def up (place : Place) : Place :=
  if place.isAbove then { place with names := place.names ++ [FilePath.parent] }
  else { place with names := place.names.dropLast }

/-- The place that a name leads to from a directory. -/
def child (place : Place) (name : String) : Except FileFault Place :=
  if name = FilePath.here then .ok place
  else if name = FilePath.parent then .ok place.up
  else if FilePath.nameLimit < name.utf8ByteSize then .error .nameTooLong
  else .ok { place with names := place.names ++ [name] }

def isBelow (place above : Place) : Bool :=
  place.fromTop == above.fromTop && above.names.isPrefixOf place.names && place.names ≠ above.names

/-- The directories that every system has. -/
def commonDirectories : List Place :=
  ⟨true, []⟩ :: ["bin", "dev", "etc", "home", "root", "tmp", "usr", "var"].map fun name =>
    ⟨true, [name]⟩

def nullDevice : Place := ⟨true, ["dev", "null"]⟩

end Place

/-- The files of a directory: where they are, and what they contain. -/
structure Directory where
  files : List (Place × Bytes)
  deriving DecidableEq

/-- What there is at a place. -/
inductive Entry where
  | directory
  | file (content : Bytes)
  deriving DecidableEq

namespace Directory

def empty : Directory := ⟨[]⟩

instance : Inhabited Directory := ⟨empty⟩

def hasDirectory (dir : Directory) (place : Place) : Bool :=
  place.isAbove || Place.commonDirectories.contains place ||
    dir.files.any fun entry => entry.1.isBelow place

def entry? (dir : Directory) (place : Place) : Option Entry :=
  if dir.hasDirectory place then some .directory
  else if place = .nullDevice then some (.file [])
  else (dir.files.lookup place).map .file

/-! ## Following paths -/

/-- Follows names through directories. -/
def follow (dir : Directory) : Place → List String → Except FileFault Place
  | place, [] => .ok place
  | place, name :: rest =>
    match place.child name with
    | .error e => .error e
    | .ok next =>
      match dir.entry? next with
      | none => .error .notFound
      | some (.file _) => .error .notDirectory
      | some .directory => dir.follow next rest

/-- The directory in which a path ends, and the last name of the path.  The path of the topmost
directory has no name; it ends with the name that stays there. -/
def approach (dir : Directory) (path : FilePath) : Except FileFault (Place × String) :=
  match dir.follow ⟨path.isAbsolute, []⟩ path.names.dropLast with
  | .error e => .error e
  | .ok place => .ok (place, path.names.getLast?.getD FilePath.here)

/-! ## Reading -/

def readBytes (dir : Directory) (path : String) : Except FileFault Bytes := do
  let path ← FilePath.parse path
  let (place, name) ← dir.approach path
  match dir.entry? (← place.child name) with
  | none => throw .notFound
  | some .directory => throw .isDirectory
  | some (.file content) => if path.namesDirectory then throw .notDirectory else return content

def readText (dir : Directory) (path : String) : Except FileFault String :=
  match dir.readBytes path with
  | .error e => .error e
  | .ok content =>
    match String.fromUTF8? ⟨content.toArray⟩ with
    | none => .error .notText
    | some text => .ok text

/-! ## Writing -/

/-- The directory with a file added or replaced. -/
def put (dir : Directory) (place : Place) (content : Bytes) : Directory :=
  if place = .nullDevice then dir
  else ⟨(place, content) :: dir.files.filter (·.1 ≠ place)⟩

/-- Opens a file for writing: where it is, and what is there so far.  It is made if it is not there,
so a path that can only be that of a directory is refused whatever it leads to. -/
def openForWriting (dir : Directory) (path : String) : Except FileFault (Place × Bytes) := do
  let path ← FilePath.parse path
  let (place, name) ← dir.approach path
  if path.namesDirectory then throw .isDirectory
  let place ← place.child name
  match dir.entry? place with
  | none => return (place, [])
  | some .directory => throw .isDirectory
  | some (.file content) => return (place, content)

/-- Writes a text to a file in place of what was there. -/
def writeText (dir : Directory) (path : String) (text : String) : Except FileFault Directory :=
  match dir.openForWriting path with
  | .error e => .error e
  | .ok (place, _) => .ok (dir.put place text.toUTF8.toList)

/-- Adds a text at the end of a file. -/
def appendText (dir : Directory) (path : String) (text : String) : Except FileFault Directory :=
  match dir.openForWriting path with
  | .error e => .error e
  | .ok (place, before) => .ok (dir.put place (before ++ text.toUTF8.toList))

/-- A directory with files given by their paths, which lead downwards. -/
def ofFiles (files : List (String × Bytes)) : Directory :=
  files.foldl
    (fun dir (path, content) =>
      dir.put ⟨false, (FilePath.ofText path).names.filter (· ≠ FilePath.here)⟩ content)
    empty

end Directory

end BridgeMint
