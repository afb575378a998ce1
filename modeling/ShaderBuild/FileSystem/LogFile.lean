import ShaderBuild.FileSystem.World
import ShaderBuild.Log
/-!
The log file. It is the file that keeps the log and not its path: entries are added at its end
wherever it is moved, and are lost once another file has taken its place.
-/
namespace ShaderBuild

/-- The file with a text added at its end, if it keeps the log. -/
def File.addLog (file : File) (text : Text) (now : Instant) : File :=
  if file.keepsLog then { file with contents := file.contents.append text, modified := now }
  else file

namespace FileSystem

/-- Lets the file at a path keep the log; if there is none, it is made. -/
def openLog (files : FileSystem) (path : Path) (now : Instant) : Except FileError FileSystem :=
  match files.openFile path now with
  | .error problem => .error problem
  | .ok (location, file) => .ok (files.put location (.file { file with keepsLog := true }))

/-- Adds a text to the file that keeps the log. -/
def addLog (files : FileSystem) (text : Text) (now : Instant) : FileSystem :=
  { files with
    entries := files.entries.map fun entry =>
      match entry.2 with
      | .file file => (entry.1, .file (file.addLog text now))
      | _ => entry }

end FileSystem

namespace World

/-- Lets the file at a path keep the log. -/
def openLog (world : World) (path : Path) : Except FileError Unit × World :=
  world.change fun now => world.files.openLog path now

/-- Adds log entries of at most the given level to the log file; without a level there is none. -/
def record (world : World) (level : Option Log.Level) (entries : List Log.Entry) : World :=
  match level with
  | none => world
  | some level =>
    let text := Log.text level world.now entries
    if text.isEmpty then world else world.after (world.files.addLog text world.now)

@[simp] theorem record_none (world : World) (entries : List Log.Entry) :
    world.record none entries = world := rfl

end World

end ShaderBuild
