import ShaderBuild.FileSystem.Walk
/-!
Reading and changing files. A change either gives the new file system or fails and changes nothing;
only the creation of a chain of directories can fail half done.
-/
namespace ShaderBuild.FileSystem

/-- The text of the file at a path. -/
def readText (files : FileSystem) (path : Path) : Except FileError Text :=
  match files.locateFile path with
  | .error problem => .error problem
  | .ok (_, file) =>
    match file.contents with
    | .text text => .ok text
    | .binary _ => .error .notUtf8

def isFile (files : FileSystem) (path : Path) : Bool :=
  (files.locateFile path).isOk

def isDirectory (files : FileSystem) (path : Path) : Bool :=
  match files.locate .target path with
  | .ok (.occupied _ .directory) => true
  | _ => false

/-- When the file at a path was last changed; other nodes have no such time. -/
def modified? (files : FileSystem) (path : Path) : Option Instant :=
  match files.locateFile path with
  | .ok (_, file) => some file.modified
  | .error _ => none

/-- Fails unless the file at a path may be started as a program. The file that
keeps the log is open for writing, and so cannot be started. -/
def checkExecutable (files : FileSystem) (path : Path) : Except FileError Unit :=
  match files.locateFile path with
  | .error .isADirectory => .error .permissionDenied
  | .error problem => .error problem
  | .ok (_, file) =>
    if !file.executable then .error .permissionDenied
    else if file.keepsLog then .error .programBusy
    else .ok ()

/-- The file at a path, to be changed or as it is: where it is, and an empty one made `now` if there
is none. -/
def openFile (files : FileSystem) (path : Path) (now : Instant) :
    Except FileError (Location × File) :=
  match files.locate .creation path with
  | .error problem => .error problem
  | .ok (.vacant location) => .ok (location, ⟨.text [], now, false, false⟩)
  | .ok (.occupied location (.file file)) => .ok (location, file)
  | .ok (.occupied _ _) => .error .isADirectory

/-- Replaces the contents of a file as a whole, or creates it. -/
def write (files : FileSystem) (path : Path) (now : Instant) (contents : Contents) :
    Except FileError FileSystem :=
  match files.openFile path now with
  | .error problem => .error problem
  | .ok (location, file) =>
    .ok (files.put location (.file { file with contents := contents, modified := now }))

/-- Gives the file at a path the time `now`; the file has no other owner who would be asked. -/
def setModified (files : FileSystem) (path : Path) (now : Instant) : Except FileError FileSystem :=
  match files.locateFile path with
  | .error problem => .error problem
  | .ok (location, file) => .ok (files.put location (.file { file with modified := now }))

/-- Creates one directory. -/
def makeDirectory (files : FileSystem) (path : Path) : Except FileError FileSystem :=
  match files.locate .node path with
  | .error problem => .error problem
  | .ok (.vacant location) => .ok (files.put location .directory)
  | .ok (.occupied _ _) => .error .alreadyExists

/-- Creates the first path as a directory, and before it, where they are missing, the later ones.
A directory that is already there is no failure. -/
def makeChain (files : FileSystem) : List Path → Except FileError Unit × FileSystem
  | [] => (.ok (), files)
  | path :: outer =>
    if path.text.isEmpty || path.parent?.isNone then (.ok (), files)
    else
      match files.makeDirectory path with
      | .ok made => (.ok (), made)
      | .error .notFound =>
        match makeChain files outer with
        | (.error problem, made) => (.error problem, made)
        | (.ok (), made) =>
          match made.makeDirectory path with
          | .ok whole => (.ok (), whole)
          | .error problem => (if made.isDirectory path then .ok () else .error problem, made)
      | .error problem => (if files.isDirectory path then .ok () else .error problem, files)

/-- Creates a directory and all that are missing above it. -/
def makeDirectories (files : FileSystem) (path : Path) : Except FileError Unit × FileSystem :=
  files.makeChain (path :: path.parents)

/-- The last step of the path is `.` or `..`, or there is none. -/
def endsInDots (path : Path) : Bool :=
  match path.steps.getLast? with
  | some (.enter _) => false
  | _ => true

/-- The node that a rename moves: links are moved themselves. -/
def renameSource (files : FileSystem) (path : Path) : Except FileError (Location × Node) :=
  match files.locate .node path with
  | .error problem => .error problem
  | .ok (.vacant _) => .error .notFound
  | .ok (.occupied location node) =>
    if endsInDots path then .error .deviceBusy
    else if path.endsInSlash then .error .notADirectory
    else .ok (location, node)

/-- The location that a rename gives to a file: vacant, or that of a file or link to replace. -/
def renameTarget (files : FileSystem) (path : Path) : Except FileError Location :=
  match files.locate .node path with
  | .error problem => .error problem
  | .ok place =>
    if endsInDots path then .error .deviceBusy
    else if path.endsInSlash then .error .notADirectory
    else
      match place with
      | .vacant location => .ok location
      | .occupied _ .directory => .error .isADirectory
      | .occupied location _ => .ok location

/-- Moves a file or link, replacing the file or link at the target. -/
def rename (files : FileSystem) (source target : Path) : Except FileError FileSystem :=
  match files.renameSource source with
  | .error problem => .error problem
  | .ok (old, node) =>
    match files.renameTarget target with
    | .error problem => .error problem
    | .ok new => if new == old then .ok files else .ok ((files.erase old).put new node)

end ShaderBuild.FileSystem
