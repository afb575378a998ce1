import ShaderBuild.FileSystem.Access
/-!
A file system together with the clock that stamps its changes.
-/
namespace ShaderBuild

/-- The clock's readings in order, and how many of them were taken. -/
structure World where
  files : FileSystem
  clock : Nat → Instant
  ticks : Nat

namespace World

/-- The next reading of the clock. -/
def now (world : World) : Instant :=
  world.clock world.ticks

/-- The world after a change that took one reading of the clock. -/
def after (world : World) (files : FileSystem) : World :=
  { world with files := files, ticks := world.ticks + 1 }

/-- The outcome of a change of the files, and the world after it. -/
def change (world : World) (change : Instant → Except FileError FileSystem) :
    Except FileError Unit × World :=
  match change world.now with
  | .ok files => (.ok (), world.after files)
  | .error problem => (.error problem, world)

/-- Writes a file. -/
def write (world : World) (path : Path) (contents : Contents) : Except FileError Unit × World :=
  world.change fun now => world.files.write path now contents

/-- Moves a file. -/
def rename (world : World) (source target : Path) : Except FileError Unit × World :=
  world.change fun _ => world.files.rename source target

/-- Creates a directory and all that are missing above it. -/
def makeDirectories (world : World) (path : Path) : Except FileError Unit × World :=
  let (outcome, files) := world.files.makeDirectories path
  (outcome, { world with files := files })

end World

end ShaderBuild
