import ShaderBuild.Proofs.Dependency.Closure
import ShaderBuild.Proofs.Json.RoundTrip
/-!
However a set of paths came about, it lists what it was offered since it was last replaced, each path
where it came first.
-/
namespace ShaderBuild

namespace PathSet

variable {set : PathSet}

/-- The paths of a list that are the same as none before them, in order. -/
def firsts (paths : List Path) : List Path :=
  (paths.zipIdx.filter fun (path, index) =>
    (paths.take index).all fun before => !before.same path).map Prod.fst

theorem firsts_concat (paths : List Path) (path : Path) :
    firsts (paths ++ [path]) =
      firsts paths ++ if paths.any fun before => before.same path then [] else [path] := by
  have earlier : (paths.zipIdx.filter fun (own, index) =>
        ((paths ++ [path]).take index).all fun before => !before.same own) =
      paths.zipIdx.filter fun (own, index) =>
        (paths.take index).all fun before => !before.same own := by
    refine List.filter_congr fun (own, index) member => ?_
    have bound : index < paths.length := by simpa using List.snd_lt_of_mem_zipIdx member
    dsimp only
    rw [List.take_append_of_le_length (Nat.le_of_lt bound)]
  rw [firsts, List.zipIdx_append, List.filter_append, List.map_append, earlier, ← firsts]
  congr 1
  cases known : paths.any fun before => before.same path <;> simp_all

theorem ofList_concat (paths : List Path) (path : Path) :
    ofList (paths ++ [path]) = (ofList paths).insert path :=
  extend_append empty paths [path]

theorem contains_ofList (paths : List Path) (path : Path) :
    (ofList paths).contains path = paths.any fun before => before.same path := by
  rw [Bool.eq_iff_iff, ofList, contains_extend_iff]
  simp [contains, empty, Path.same_iff]

theorem paths_ofList (paths : List Path) : (ofList paths).paths = firsts paths := by
  induction paths using List.reverseRecOn with
  | nil => rfl
  | append_singleton paths path ih =>
    rw [ofList_concat, firsts_concat, ← ih, insert, contains_ofList]
    split
    · exact (List.append_nil _).symm
    · rfl

theorem ofJson?_toJson (distinct : set.Distinct) : ofJson? set.toJson = some set := by
  have texts : (set.paths.map Path.text).map Path.mk = set.paths := by
    rw [List.map_map]
    exact List.map_id _
  rw [ofJson?, toJson, Json.readTexts?_writeTexts, Option.map_some, texts, ofList_paths distinct]

theorem add_iff {path : Path} :
    (set.add path).1 = true ↔ ∀ known ∈ set.paths, known.components ≠ path.components := by
  simp [add_eq, contains, Path.same]

/-- What may be done to a set. -/
inductive Change where
  | add (path : Path)
  | extend (paths : List Path)
  /-- Replaces the set by one made from a list. -/
  | replace (paths : List Path)
  /-- Replaces the set by what is read from JSON, if that is a list of texts. -/
  | decode (json : Text)
  deriving DecidableEq, Repr

namespace Change

/-- The set after the change. -/
def apply (set : PathSet) : Change → PathSet
  | .add path => (set.add path).2
  | .extend paths => set.extend paths
  | .replace paths => .ofList paths
  | .decode json => (ofJson? json).getD set

/-- The paths offered since the last replacement, when `offered` are those before the change. -/
def offer (offered : List Path) : Change → List Path
  | .add path => offered ++ [path]
  | .extend paths => offered ++ paths
  | .replace paths => paths
  | .decode json => ((Json.readTexts? json).map (·.map Path.mk)).getD offered

theorem apply_ofList (offered : List Path) (change : Change) :
    change.apply (ofList offered) = ofList (change.offer offered) := by
  cases change with
  | add path => rw [apply, add_eq, offer, ofList_concat]
  | extend paths => exact (extend_append empty offered paths).symm
  | replace paths => rfl
  | decode json =>
    rw [apply, offer, ofJson?]
    cases Json.readTexts? json <;> rfl

theorem foldl_apply (offered : List Path) (changes : List Change) :
    changes.foldl apply (ofList offered) = ofList (changes.foldl offer offered) := by
  induction changes generalizing offered with
  | nil => rfl
  | cons change changes ih => rw [List.foldl_cons, List.foldl_cons, apply_ofList, ih]

end Change

/-- After any changes to the empty set no two of its paths are the same; they are the first occurrences
among the paths offered since the last replacement, as they were given and in that order. Adding a path
succeeds exactly if the set has none that is the same, and what is written of the set is read back as
it is. -/
theorem firsts_of_changes (changes : List Change) :
    let set := changes.foldl Change.apply empty
    set.Distinct ∧ set.paths = firsts (changes.foldl Change.offer []) ∧
      (∀ path, (set.add path).1 = true ↔
        ∀ known ∈ set.paths, known.components ≠ path.components) ∧
      ofJson? set.toJson = some set := by
  have made : changes.foldl Change.apply empty = ofList (changes.foldl Change.offer []) :=
    Change.foldl_apply [] changes
  rw [made]
  have distinct := distinct_ofList (changes.foldl Change.offer [])
  exact ⟨distinct, paths_ofList _, fun path => add_iff, ofJson?_toJson distinct⟩

/-- Spellings of one path: the first stays, and a leading `.` makes another path. -/
example : firsts [Path.of "a/b", Path.of "c", Path.of "a//b/", Path.of "./c", Path.of "a/./b"] =
    [Path.of "a/b", Path.of "c", Path.of "./c"] := by decide

end PathSet

end ShaderBuild
