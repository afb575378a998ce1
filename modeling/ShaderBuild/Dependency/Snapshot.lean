import ShaderBuild.Build.Failure
import ShaderBuild.Dependency.Store
import ShaderBuild.FileSystem.World
import ShaderBuild.Json.Texts
import ShaderBuild.Log
import ShaderBuild.Text.Utf8
/-!
Keeping dependencies in a file between runs: one JSON object from key to list of paths, sorted by
the text of the keys. A new snapshot is written beside the old one and then takes its place.
-/
namespace ShaderBuild

/-- The fields of a snapshot: the text of a key, and paths. -/
abbrev Snapshot := List (Text × List Text)

namespace Snapshot

/-- The fields with those of one text united: the value written last counts. -/
def unite (fields : Snapshot) : Snapshot :=
  fields.foldl
    (fun united field => united.filter (fun other => other.1 != field.1) ++ [field]) []

/-- The fields sorted by text, one for each text. -/
def sorted (fields : Snapshot) : Snapshot :=
  (unite fields).mergeSort fun left right => (Text.order left.1 right.1).isLE

def ofCache (cache : DependencyStore) : Snapshot :=
  sorted (cache.entries.map fun entry => (entry.1.text, entry.2.paths.map Path.text))

/-- Stores the fields in order; the first text that is no key fails. -/
def fill (cache : DependencyStore) : Snapshot → Except KeyError DependencyStore
  | [] => .ok cache
  | (text, paths) :: rest =>
    match DependencyKey.parse text with
    | .ok key => fill (cache.insert key (PathSet.ofList (paths.map Path.mk))) rest
    | .error problem => .error problem

/-- Reads the text of a snapshot; a blank text is an empty one. -/
def read (text : Text) : Except SnapshotProblem DependencyStore :=
  match Json.readFields? text with
  | none => .error .malformed
  | some fields =>
    match fill DependencyStore.empty (sorted fields) with
    | .ok cache => .ok cache
    | .error problem => .error (.badKey problem)

def note (level : Log.Level) (message : String) : Logged Unit :=
  Logged.note level .dependencyCache message

/-- Loads the snapshot at a path. A missing file is an empty snapshot, and so is a blank one. -/
def load (files : FileSystem) (path : Path) : Logged (Except BuildFailure DependencyStore) :=
  match files.readText path with
  | .error .notFound => do
    note .debug s!"No dependency cache at {path}"
    pure (.ok DependencyStore.empty)
  | .error problem => pure (.error (.snapshot path (.unreadable problem)))
  | .ok text =>
    if (Text.trim text).isEmpty then pure (.ok DependencyStore.empty)
    else
      match read text with
      | .error problem => pure (.error (.snapshot path problem))
      | .ok cache => do
        note .debug s!"Loaded {cache.entries.length} dependency cache entries from {path}"
        pure (.ok cache)

/-- Loads the snapshot at a path, or starts from nothing when it cannot be loaded. -/
def loadOrEmpty (files : FileSystem) (path : Path) : Logged DependencyStore := do
  match ← load files path with
  | .ok cache => pure cache
  | .error problem => do
    note .warn s!"{problem.message}; starting with an empty dependency cache"
    pure DependencyStore.empty

/-- Where a new snapshot is written before it takes the place of the one at `path`. -/
def temporary (path : Path) : Path :=
  path.withExtension "json.tmp"

/-- The directory of the snapshot, unless it is the working directory. -/
def directory? (path : Path) : Option Path :=
  match path.parent? with
  | some parent => if parent.text.isEmpty then none else some parent
  | none => none

/-- First step of saving: the directory is there. -/
def prepare (world : World) (path : Path) : Except BuildFailure Unit × World :=
  match directory? path with
  | none => (.ok (), world)
  | some parent =>
    match world.makeDirectories parent with
    | (.ok (), world) => (.ok (), world)
    | (.error problem, world) => (.error (.file parent problem), world)

/-- Second step: the text stands in the temporary file. -/
def writeBeside (world : World) (path : Path) (text : Text) : Except BuildFailure Unit × World :=
  match world.write (temporary path) (.text text) with
  | (.ok (), world) => (.ok (), world)
  | (.error problem, world) => (.error (.file (temporary path) problem), world)

/-- Third step: the temporary file takes the place of the snapshot. -/
def publish (world : World) (path : Path) : Except BuildFailure Unit × World :=
  match world.rename (temporary path) path with
  | (.ok (), world) => (.ok (), world)
  | (.error problem, world) => (.error (.file path problem), world)

/-- Writes a text as the snapshot at a path. -/
def replace (world : World) (path : Path) (text : Text) : Except BuildFailure Unit × World :=
  match prepare world path with
  | (.error problem, world) => (.error problem, world)
  | (.ok (), world) =>
    match writeBeside world path text with
    | (.error problem, world) => (.error problem, world)
    | (.ok (), world) => publish world path

/-- Saves a cache at a path. -/
def save (cache : DependencyStore) (world : World) (path : Path) :
    Logged (Except BuildFailure Unit × World) :=
  let fields := ofCache cache
  match replace world path (Json.writeFields fields) with
  | (.error problem, world) => pure (.error problem, world)
  | (.ok (), world) => do
    note .debug s!"Saved {fields.length} dependency cache entries to {path}"
    pure (.ok (), world)

end Snapshot

end ShaderBuild
