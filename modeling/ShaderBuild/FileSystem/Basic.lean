import ShaderBuild.Instant
import ShaderBuild.Path.Basic
import ShaderBuild.Text.Utf8
/-!
A file system as a value: which node stands at which location. A location is the list of names from
the root; the root itself is always a directory.

Some things are left out of the picture. Every file and directory belongs to the user of the programs
and lets them read and write; only that a file may not be executed is known. So the time of a file that
is there can always be set. A file stands at one location: there are no hard links. And there is always
room: a write puts all that it writes, or fails and puts nothing.
-/
namespace ShaderBuild

/-- What a file holds: a text, or bytes that are none. -/
inductive Contents where
  | text (text : Text)
  | binary (bytes : List UInt8)
  deriving DecidableEq, Repr

namespace Contents

def ofBytes (bytes : List UInt8) : Contents :=
  match Text.decode? bytes with
  | some found => .text found
  | none => .binary bytes

def bytes : Contents → List UInt8
  | .text found => Text.encode found
  | .binary found => found

/-- The contents followed by a text. -/
def append (contents : Contents) (more : Text) : Contents :=
  match contents with
  | .text found => .text (found ++ more)
  | .binary found => ofBytes (found ++ Text.encode more)

end Contents

structure File where
  contents : Contents
  modified : Instant
  executable : Bool
  /-- Log entries are added at the end of this file. -/
  keepsLog : Bool
  deriving DecidableEq, Repr

inductive Node where
  | file (file : File)
  | directory
  /-- A symbolic link; a relative target starts at the link's own directory. -/
  | link (target : Path)
  deriving DecidableEq, Repr

/-- The names from the root to a node. -/
abbrev Location := List Text

structure FileSystem where
  entries : List (Location × Node)
  /-- The directory in which relative paths start, as a location and as a path. -/
  workingLocation : Location
  workingDirectory : Path

namespace FileSystem

/-- What stands at a location. -/
def node? (files : FileSystem) (location : Location) : Option Node :=
  if location.isEmpty then some .directory else files.entries.lookup location

/-- The file system with `node` at `location`. -/
def put (files : FileSystem) (location : Location) (node : Node) : FileSystem :=
  { files with
    entries := (location, node) :: files.entries.filter fun entry => entry.1 != location }

/-- The file system without the node at `location`. -/
def erase (files : FileSystem) (location : Location) : FileSystem :=
  { files with entries := files.entries.filter fun entry => entry.1 != location }

/-- `path` from the root; the empty path stays empty. -/
def absolute (files : FileSystem) (path : Path) : Path :=
  (Path.absolute? files.workingDirectory path).getD path

end FileSystem

/-- Why a file operation fails. -/
inductive FileError where
  | notFound
  | permissionDenied
  | deviceBusy
  | alreadyExists
  | notADirectory
  | isADirectory
  /-- The program is a file that is kept open for writing. -/
  | programBusy
  | nameTooLong
  | tooManyLinks
  /-- The path holds a NUL character. -/
  | nulInPath
  /-- The contents are no text. -/
  | notUtf8
  /-- The program or an argument of a launch holds a NUL character. -/
  | nulInLaunch
  deriving DecidableEq, Repr

/-- The words of the operating system for a failure, with its error number. -/
def FileError.message : FileError → String
  | .notFound => "No such file or directory (os error 2)"
  | .permissionDenied => "Permission denied (os error 13)"
  | .deviceBusy => "Device or resource busy (os error 16)"
  | .alreadyExists => "File exists (os error 17)"
  | .notADirectory => "Not a directory (os error 20)"
  | .isADirectory => "Is a directory (os error 21)"
  | .programBusy => "Text file busy (os error 26)"
  | .nameTooLong => "File name too long (os error 36)"
  | .tooManyLinks => "Too many levels of symbolic links (os error 40)"
  | .nulInPath => "file name contained an unexpected NUL byte"
  | .notUtf8 => "stream did not contain valid UTF-8"
  | .nulInLaunch => "nul byte found in provided data"

instance : ToString FileError :=
  ⟨FileError.message⟩

end ShaderBuild
