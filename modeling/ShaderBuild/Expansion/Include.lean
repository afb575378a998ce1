import ShaderBuild.Dependency.PathSet
import ShaderBuild.Expansion.Replace
import ShaderBuild.FileSystem.Access
/-!
Following includes. Each file is read the first time it is met and its own includes are followed
before what comes after it; a file met before is not followed again. What a file asks for is not
known before it is read, but every include that is found has a path that the file system accepts:
the paths of that length bound the number of steps.
-/
namespace ShaderBuild

/-- The directories in which includes are looked up, in order. -/
structure SearchPath where
  roots : List Path
  deriving DecidableEq, Repr

namespace SearchPath

/-- Each library has two roots: the directory of its own name below its sources, then its
sources. -/
def forLibraries (directory : Path) (libraries : List Text) : SearchPath :=
  ⟨libraries.flatMap fun library =>
    let sources := (directory.join ⟨library⟩).child "src"
    [sources.join ⟨library⟩, sources]⟩

/-- Where the first root that has a file of that name has it. -/
def resolve? (search : SearchPath) (files : FileSystem) (name : Text) : Option Path :=
  ((search.roots.map fun root => root.join ⟨name⟩).find? files.isFile).map files.absolute

end SearchPath

/-- What is left to do while includes are followed. -/
inductive Errand where
  /-- Note an opener without a closer. -/
  | note (offset : Nat)
  /-- Find the file `name` that the file at `path` includes. -/
  | fetch (path : Path) (name : Text)
  deriving DecidableEq, Repr

namespace Errand

/-- What a piece of the file at `path` asks for. -/
def ofPiece? (path : Path) : Piece → Option Errand
  | .char _ => none
  | .stray offset => some (.note offset)
  | .marker found =>
    match found.directive with
    | .include name => some (.fetch path name)
    | _ => none

/-- What the text of the file at `path` asks for, in order. -/
def ofText (path : Path) (text : Text) : List Errand :=
  (scan text).filterMap (ofPiece? path)

end Errand

namespace Include

/-- All texts of fewer than `bound` characters. -/
noncomputable def textsBelow : (bound : Nat) → List Text
  | 0 => []
  | bound + 1 =>
    [] :: (List.range 0x110000).flatMap fun code =>
      (textsBelow bound).map fun text => Char.ofNat code :: text

theorem mem_textsBelow {text : Text} {bound : Nat} (short : text.length < bound) :
    text ∈ textsBelow bound := by
  induction text generalizing bound with
  | nil =>
    obtain ⟨rest, rfl⟩ := Nat.exists_eq_add_of_lt short
    simp [textsBelow]
  | cons c text ih =>
    cases bound with
    | zero => simp at short
    | succ bound =>
      have inRange : c.toNat < 0x110000 := by
        rcases c.valid with low | high
        · exact Nat.lt_trans low (by decide)
        · exact high.2
      have rest : text ∈ textsBelow bound := ih (by simpa using short)
      simp only [textsBelow, List.mem_cons, List.mem_flatMap, List.mem_range, List.mem_map]
      exact .inr ⟨c.toNat, inRange, text, rest, by simp⟩

/-- The absolute form of every path that the file system accepts. -/
noncomputable def candidates (files : FileSystem) : List Path :=
  (textsBelow FileSystem.maximalPath).map fun text => files.absolute ⟨text⟩

/-- The number of candidates that are not in the set yet. -/
noncomputable def unseen (files : FileSystem) (set : PathSet) : Nat :=
  ((candidates files).filter fun path => !set.contains path).length

theorem length_le_byteLength (text : Text) : text.length ≤ Text.byteLength text := by
  induction text with
  | nil => simp
  | cons c text ih =>
    have := c.utf8Size_pos
    simp only [List.length_cons, Text.byteLength]
    omega

theorem length_of_isFile {files : FileSystem} {path : Path} (found : files.isFile path = true) :
    path.text.length < FileSystem.maximalPath := by
  refine Nat.lt_of_not_le fun long => ?_
  have tooLong : Text.byteLength path.text ≥ FileSystem.maximalPath :=
    Nat.le_trans long (length_le_byteLength path.text)
  have refused (place : Place) : files.locate .target path ≠ .ok place := by
    unfold FileSystem.locate
    rw [if_pos tooLong]
    split
    · simp
    · split <;> simp
  unfold FileSystem.isFile FileSystem.locateFile at found
  split at found
  · simp [Except.isOk, Except.toBool] at found
  all_goals exact absurd ‹_› (refused _)

theorem resolve?_mem {files : FileSystem} {search : SearchPath} {name : Text} {found : Path}
    (resolved : search.resolve? files name = some found) : found ∈ candidates files := by
  obtain ⟨path, first, rfl⟩ := Option.map_eq_some_iff.mp resolved
  have short := length_of_isFile (List.find?_some first)
  exact List.mem_map.mpr ⟨path.text, mem_textsBelow short, rfl⟩

private theorem same_self (path : Path) : path.same path = true := by
  simp [Path.same]

theorem contains_insert {set : PathSet} {path other : Path}
    (present : set.contains other = true) : (set.insert path).contains other = true := by
  unfold PathSet.insert
  split
  · exact present
  · simp_all [PathSet.contains]

theorem contains_insert_self (set : PathSet) (path : Path) :
    (set.insert path).contains path = true := by
  unfold PathSet.insert
  split
  · assumption
  · simp [PathSet.contains, same_self]

private theorem length_filter_lt {items : List Path} {before after : Path → Bool} {path : Path}
    (member : path ∈ items) (fewer : ∀ item, after item = true → before item = true)
    (kept : before path = true) (dropped : after path = false) :
    (items.filter after).length < (items.filter before).length := by
  induction items with
  | nil => simp at member
  | cons head rest ih =>
    have monotone : (rest.filter after).length ≤ (rest.filter before).length := by
      simp only [← List.countP_eq_length_filter]
      exact List.countP_mono_left fun item _ holds => fewer item holds
    rcases List.mem_cons.mp member with rfl | later
    · simp [kept, dropped]
      omega
    · have shorter := ih later
      cases first : after head with
      | false => cases second : before head <;> simp [first, second] <;> omega
      | true => simp [first, fewer head first]; omega

theorem unseen_insert_lt {files : FileSystem} {set : PathSet} {path : Path}
    (member : path ∈ candidates files) (fresh : ¬set.contains path = true) :
    unseen files (set.insert path) < unseen files set := by
  refine length_filter_lt member (fun item absent => ?_) (by simpa using fresh)
    (by simp [contains_insert_self])
  cases present : set.contains item with
  | false => rfl
  | true => simp [contains_insert present] at absent

/-- Does the errands in order, adding each included file to the set the first time it is met. -/
def follow (files : FileSystem) (search : SearchPath) : List Errand → PathSet → Expanding PathSet
  | [], set => pure set
  | .note offset :: rest, set => do
    liftM (Scan.noteStray offset)
    follow files search rest set
  | .fetch path name :: rest, set =>
    match _resolved : search.resolve? files name with
    | none => .ofExcept (.error (.unresolvedInclude path name search.roots))
    | some found =>
      if _present : set.contains found = true then follow files search rest set
      else do
        Expanding.note .trace .expansion s!"{path} includes {found}"
        let text ← Expanding.readText found
        follow files search (Errand.ofText found text ++ rest) (set.insert found)
  termination_by errands set => (unseen files set, errands.length)
  decreasing_by
    · exact Prod.Lex.right _ (by simp)
    · exact Prod.Lex.right _ (by simp)
    · exact Prod.Lex.left _ _ (unseen_insert_lt (resolve?_mem _resolved) _present)

/-- Follows all includes of the text of the file at `path`. -/
def collect (files : FileSystem) (search : SearchPath) (path : Path) (text : Text) :
    Expanding PathSet :=
  follow files search (Errand.ofText path text) PathSet.empty

/-- The native line for an include. -/
def nativeLine? : Directive → Option Text
  | .include name => some ("#include <".toList ++ name ++ ">".toList)
  | _ => none

end Include

/-- Writes includes as native lines and lists all files that they lead to. Openers without a closer
are noted while the includes are followed, and not once more for the text. -/
def nativeIncludes (files : FileSystem) (search : SearchPath) (path : Path) (text : Text) :
    Expanding (Text × PathSet) := do
  let included ← Include.collect files search path text
  pure ((replaceMarkers Include.nativeLine? text).value, included)

end ShaderBuild
