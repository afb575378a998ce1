import ShaderBuild.Program.Build
import ShaderBuild.Program.Expand
/-!
The executable: under the name `scribe` it expands one template, under any other name it runs
builds. It takes the files below the working directory, and those that its arguments name, as the
world, and writes back what the program changed. It starts no external program itself: every stage
of the toolchain that is needed ends with the status of a command that is not found.
-/
namespace ShaderBuild.Executable

/-- The location of a path that starts in `directory` if it is relative. -/
def locationOf (directory path : Path) : Location :=
  (directory.join path).components.foldl
    (fun here component =>
      match component with
      | .name name => here ++ [name]
      | .up => here.dropLast
      | _ => here) []

/-- The path of a location. -/
def pathOf (location : Location) : String :=
  "/" ++ "/".intercalate (location.map Text.str)

/-- The file system with a node, and all directories above it. -/
def place (files : FileSystem) (location : Location) (node : Node) : FileSystem :=
  let above := (List.range location.length).map location.take
  let files := above.foldl (fun files outer => files.put outer .directory) files
  files.put location node

/-- The time after all changes in the file system. -/
def latest (files : FileSystem) : Instant :=
  files.entries.foldl
    (fun time entry =>
      match entry.2 with
      | .file file => max time file.modified
      | _ => time) 0

/-- The world of a file system; its clock goes on after the latest change. -/
def worldOf (files : FileSystem) : World :=
  ⟨files, fun ticks => latest files + 1 + ticks, 0⟩

/-- Programs of which none can be found. -/
def noTools : Tools :=
  ⟨fun _ _ world => (⟨.exited 127, [], []⟩, world)⟩

/-- Adds the file or the tree of directories at a path, if there is one. -/
def addTree (files : FileSystem) (path : String) : IO FileSystem := do
  let start := (← IO.currentDir) / path
  let below ← if ← start.isDir then start.walkDir else pure #[]
  let mut files := files
  for path in #[start] ++ below do
    let location := locationOf files.workingDirectory (Path.of path.toString)
    if ← path.isDir then files := place files location .directory
    else if ← path.pathExists then
      let modified := (← path.metadata).modified
      let bytes ← IO.FS.readBinFile path
      let time := modified.sec * 1000000000 + modified.nsec.toNat
      files := place files location (.file ⟨Contents.ofBytes bytes.toList, time, true, false⟩)
  pure files

/-- The files that a program can see. -/
def readFiles (arguments : List String) : IO FileSystem := do
  let directory := Path.of (← IO.currentDir).toString
  let start : FileSystem := ⟨[], locationOf directory directory, directory⟩
  ("." :: arguments).foldlM addTree start

/-- Writes one change. -/
def writeNode (location : Location) : Node → IO Unit
  | .directory => IO.FS.createDirAll (pathOf location)
  | .file file => IO.FS.writeBinFile (pathOf location) ⟨file.contents.bytes.toArray⟩
  | .link _ => pure ()

/-- Writes back what is different after a program: first what it left, the outer directories before
what they hold, then what it removed. -/
def writeBack (before after : FileSystem) : IO Unit := do
  let left := after.entries.mergeSort fun first second => first.1.length ≤ second.1.length
  for (location, node) in left do
    if before.node? location ≠ some node then writeNode location node
  for (location, _) in before.entries do
    if (after.node? location).isNone then IO.FS.removeFile (pathOf location)

/-- All bytes of a stream. -/
partial def readAll (stream : IO.FS.Stream) (read : ByteArray) : IO ByteArray := do
  let more ← stream.read 65536
  if more.isEmpty then pure read else readAll stream (read ++ more)

/-- Standard input, if the command line asks for it. -/
def readInput (arguments : List Text) : IO Contents := do
  match ExpandRequest.parse arguments with
  | .ok options =>
    if options.input.isSome then pure (.text [])
    else return Contents.ofBytes (← readAll (← IO.getStdin) ByteArray.empty).toList
  | .error _ => pure (.text [])

/-- Runs the program of the given name on the files. -/
def run (name : Option String) (arguments : List String) (files : FileSystem) : IO Ending := do
  let texts := arguments.map String.toList
  if name = some Program.expander.name then
    return Program.expand texts (← readInput texts) (worldOf files)
  else
    let level := (← IO.getEnv "RUST_LOG").map String.toList
    return Program.build noTools texts level (worldOf files)

end ShaderBuild.Executable

open ShaderBuild Executable in
def main (arguments : List String) : IO UInt32 := do
  let files ← readFiles arguments
  let ended ← run (← IO.appPath).fileStem arguments files
  writeBack files ended.world.files
  IO.print (Text.str ended.output)
  IO.eprint (Text.str ended.errors)
  return UInt32.ofNat ended.status
