import ShaderBuild.Command.Basic
import ShaderBuild.Expansion.Include
/-!
Where things lie below the source root, and which files a command writes.
-/
namespace ShaderBuild

/-- The directory that all paths of a command list start from. -/
structure SourceTree where
  root : Path
  deriving DecidableEq, Repr

namespace SourceTree

def resolve (layout : SourceTree) (path : Path) : Path :=
  layout.root.join path

def librariesDirectory (layout : SourceTree) : Path :=
  layout.root.child "libraries"

def headersDirectory (layout : SourceTree) : Path :=
  (layout.librariesDirectory.child "shaders").child "headers"

/-- The header of the dialect, then that of the variant. -/
def headers (layout : SourceTree) (dialect : Text) (variant : Variant) : List Path :=
  [(layout.headersDirectory.join ⟨dialect⟩).child "header.glsl",
    layout.headersDirectory.child (variant.name ++ ".glsl")]

def searchPath (layout : SourceTree) (libraries : List Text) : SearchPath :=
  SearchPath.forLibraries layout.librariesDirectory libraries

end SourceTree

/-- The five files that a command writes: their paths are that of the base and a suffix. -/
structure Artifacts where
  base : Path
  deriving DecidableEq, Repr

namespace Artifacts

/-- The expanded template. -/
def expanded (artifacts : Artifacts) : Path :=
  artifacts.base

/-- The compiled binary. -/
def compiled (artifacts : Artifacts) : Path :=
  artifacts.base.extend ".spv"

def optimized (artifacts : Artifacts) : Path :=
  artifacts.base.extend ".opt.spv"

/-- The description of the binary's interface. -/
def reflection (artifacts : Artifacts) : Path :=
  artifacts.base.extend ".json"

/-- The text in the target dialect. -/
def crossCompiled (artifacts : Artifacts) : Path :=
  artifacts.base.extend ".glsl"

/-- All artifacts in the order in which they are written. -/
def all (artifacts : Artifacts) : List Path :=
  [artifacts.expanded, artifacts.compiled, artifacts.optimized, artifacts.reflection,
    artifacts.crossCompiled]

end Artifacts

end ShaderBuild
