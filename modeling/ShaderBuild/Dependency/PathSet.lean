import ShaderBuild.Json.Texts
import ShaderBuild.Path.Basic
/-!
Sets of paths in order of first appearance. Of paths that are the same, the text given first stays.
-/
namespace ShaderBuild

structure PathSet where
  paths : List Path
  deriving DecidableEq, Repr

namespace PathSet

def empty : PathSet :=
  ⟨[]⟩

def contains (set : PathSet) (path : Path) : Bool :=
  set.paths.any fun known => known.same path

def insert (set : PathSet) (path : Path) : PathSet :=
  if set.contains path then set else ⟨set.paths ++ [path]⟩

/-- Inserts a path, and says whether it was added. -/
def add (set : PathSet) (path : Path) : Bool × PathSet :=
  if set.contains path then (false, set) else (true, ⟨set.paths ++ [path]⟩)

theorem add_eq (set : PathSet) (path : Path) :
    set.add path = (!set.contains path, set.insert path) := by
  unfold add insert
  cases set.contains path <;> rfl

def extend (set : PathSet) (paths : List Path) : PathSet :=
  paths.foldl insert set

def ofList (paths : List Path) : PathSet :=
  empty.extend paths

/-- Equal sets list the same paths in the same order. -/
def same (left right : PathSet) : Bool :=
  left.paths.map Path.components == right.paths.map Path.components

/-- The set as a JSON list. -/
def toJson (set : PathSet) : Text :=
  Json.writeTexts (set.paths.map Path.text)

/-- Reads a JSON list; paths that were listed before are dropped. -/
def ofJson? (text : Text) : Option PathSet :=
  (Json.readTexts? text).map fun paths => ofList (paths.map Path.mk)

end PathSet

end ShaderBuild
