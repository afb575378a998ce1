import ShaderBuild.Dependency.Key
import ShaderBuild.Dependency.PathSet
import ShaderBuild.Expansion.Source
/-!
The dependencies known so far, one set a key. Storing under a key that is there replaces the set and
keeps the key as it was written first. Dependencies are looked up here, or found and stored.
-/
namespace ShaderBuild

structure DependencyStore where
  entries : List (DependencyKey × PathSet)
  deriving DecidableEq, Repr

namespace DependencyStore

def empty : DependencyStore :=
  ⟨[]⟩

/-- The set stored under a key. -/
def find? (cache : DependencyStore) (key : DependencyKey) : Option PathSet :=
  (cache.entries.find? fun entry => entry.1.same key).map Prod.snd

/-- The entries with the set under a key replaced, or added at the end. -/
def store (key : DependencyKey) (set : PathSet) :
    List (DependencyKey × PathSet) → List (DependencyKey × PathSet)
  | [] => [(key, set)]
  | entry :: rest =>
    if entry.1.same key then (entry.1, set) :: rest else entry :: store key set rest

def insert (cache : DependencyStore) (key : DependencyKey) (set : PathSet) :
    DependencyStore :=
  ⟨store key set cache.entries⟩

/-- All keys, sorted by their components. -/
def keys (cache : DependencyStore) : List DependencyKey :=
  (cache.entries.map Prod.fst).mergeSort fun left right => (left.order right).isLE

def note (message : String) : Expanding Unit :=
  Expanding.note .trace .dependencyCache message

/-- Finds the dependencies afresh and stores them, whatever was known. -/
def rediscover (cache : DependencyStore) (key : DependencyKey) (files : FileSystem)
    (search : SearchPath) (source : Path) (headers : List Path) :
    Expanding (PathSet × DependencyStore) := do
  let set ← discover files search source headers
  pure (set, cache.insert key set)

/-- The known dependencies, or those found afresh and stored. -/
def findOrDiscover (cache : DependencyStore) (key : DependencyKey) (files : FileSystem)
    (search : SearchPath) (source : Path) (headers : List Path) :
    Expanding (PathSet × DependencyStore) := do
  match cache.find? key with
  | some set => do
    note s!"Dependency cache hit for {key}"
    pure (set, cache)
  | none => do
    note s!"Dependency cache miss for {key}"
    cache.rediscover key files search source headers

end DependencyStore

end ShaderBuild
