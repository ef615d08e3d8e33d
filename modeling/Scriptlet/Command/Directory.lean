/-!
# Directories

A working directory as a value: files and folders by where they lie. A path is followed one name
after the other from the working directory, and every step, the empty one of a trailing slash
included, has to start from a folder. Writing a file makes the folders that its path leads through,
those that the path leaves again included.
-/

namespace Scriptlet

/-- Why a file cannot be read. -/
inductive ReadFailure where
  | missing
  | isFolder
  | notFolder
  | forbidden
  | tooLong
  | notText
  /-- Anything else, in the words of the system. -/
  | other (reason : String)
  deriving DecidableEq, Repr

namespace ReadFailure

/-- The reason as the system words it. -/
def reason : ReadFailure → String
  | .missing => "No such file or directory (os error 2)"
  | .isFolder => "Is a directory (os error 21)"
  | .notFolder => "Not a directory (os error 20)"
  | .forbidden => "Permission denied (os error 13)"
  | .tooLong => "File name too long (os error 36)"
  | .notText => "stream did not contain valid UTF-8"
  | .other reason => reason

end ReadFailure

/-- What locations are counted from: the root of the system, or the folder so many levels above the
working directory. -/
inductive Base where
  | root
  | above (levels : Nat)
  deriving DecidableEq, Repr

namespace Base

/-- One level further up. Nothing is above the root. -/
def parent : Base → Base
  | .root => .root
  | .above levels => .above (levels + 1)

end Base

/-- Where a file or a folder lies: a base, and the names that lead down from it, the last one
first. -/
structure Location where
  base : Base
  names : List String
  deriving DecidableEq, Repr

namespace Location

/-- Where a path starts: at the root if it begins with a slash, else in the working directory. -/
def start (path : String) : Location :=
  if path.startsWith "/" then ⟨.root, []⟩ else ⟨.above 0, []⟩

/-- The folder that holds this location. -/
def parent (location : Location) : Location :=
  match location.names with
  | [] => ⟨location.base.parent, []⟩
  | _ :: names => ⟨location.base, names⟩

/-- Where one name of a path leads. -/
def step (location : Location) (name : String) : Location :=
  if name = "" ∨ name = "." then location
  else if name = ".." then location.parent
  else ⟨location.base, name :: location.names⟩

/-- The locations that names lead through, one after the other. -/
def trail (location : Location) : List String → List Location
  | [] => []
  | name :: names => location.step name :: (location.step name).trail names

end Location

/-- Files with their contents, the latest first, and folders. -/
structure Directory where
  files : List (Location × ByteArray)
  folders : List Location

namespace Directory

/-- A directory without files. -/
def empty : Directory := ⟨[], []⟩

/-- The directory after a file was written. -/
def write (directory : Directory) (path : String) (content : ByteArray) : Directory :=
  let start := Location.start path
  let names := path.splitOn "/"
  { files := (names.foldl Location.step start, content) :: directory.files
    folders := start.trail names.dropLast ++ directory.folders }

/-- The directory after files were written in turn. -/
def ofFiles (files : List (String × ByteArray)) : Directory :=
  files.foldl (fun directory file => directory.write file.1 file.2) empty

/-- What a path can lead to. -/
inductive Node where
  | file (content : ByteArray)
  | folder (location : Location)

/-- What lies at a location. A base is always a folder. -/
def node? (directory : Directory) (location : Location) : Option Node :=
  match directory.files.lookup location with
  | some content => some (.file content)
  | none =>
      if location.names = [] ∨ location ∈ directory.folders then some (.folder location) else none

/-- How many bytes a name may have. -/
def nameLimit : Nat := 255

/-- How many bytes a path may have. -/
def pathLimit : Nat := 4095

/-- Go on by one name. -/
def enter (directory : Directory) : Node → String → Except ReadFailure Node
  | .file _, _ => .error .notFolder
  | .folder location, name =>
      if nameLimit < name.utf8ByteSize then .error .tooLong
      else
        match directory.node? (location.step name) with
        | some node => .ok node
        | none => .error .missing

/-- Where a path leads. -/
def find (directory : Directory) (path : String) : Except ReadFailure Node :=
  if path = "" then .error .missing
  else if pathLimit < path.utf8ByteSize then .error .tooLong
  else (path.splitOn "/").foldlM directory.enter (.folder (.start path))

/-- The text of a file. -/
def readText (directory : Directory) (path : String) : Except ReadFailure String := do
  match ← directory.find path with
  | .file content =>
      match String.fromUTF8? content with
      | some text => .ok text
      | none => .error .notText
  | .folder _ => .error .isFolder

end Directory

end Scriptlet
