import ShaderBuild.Path.Basic
/-!
The settings of one run.
-/
namespace ShaderBuild

structure RunSettings where
  commandList : Path
  toolsDirectory : Path
  sourceDirectory : Path
  /-- One command at a time, and none after the first that fails. -/
  sequential : Bool
  /-- Every command is stale. -/
  force : Bool
  /-- Stale commands are reported and not rebuilt. -/
  dryRun : Bool
  /-- The number of workers; without one the machine decides. -/
  workers : Option Nat
  /-- The value of the macro for the graphics profile. -/
  glProfile : Text
  cachePath : Path
  deriving DecidableEq, Repr

namespace RunSettings

/-- The name of the file of saved dependencies. -/
def cacheFileName : String :=
  "shaderDeps.json"

/-- The graphics profile of the platform. -/
def platformProfile : String :=
  "LINUX_GL"

/-- Settings with nothing given but where things are. -/
def ofPlaces (commandList toolsDirectory buildDirectory sourceDirectory : Path) : RunSettings :=
  { commandList
    toolsDirectory
    sourceDirectory
    sequential := false
    force := false
    dryRun := false
    workers := none
    glProfile := platformProfile.toList
    cachePath := buildDirectory.child cacheFileName }

/-- The number of workers that a log entry names; results do not depend on it. -/
def workerCount (settings : RunSettings) : Nat :=
  settings.workers.getD 1

end RunSettings

end ShaderBuild
