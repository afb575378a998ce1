import ShaderBuild.FileSystem.Access
/-!
The frame of a file system: its directories and links. Writing or removing a file leaves the frame
as it is.
-/
namespace ShaderBuild

namespace FileSystem

variable {files first second : FileSystem} {location : Location}

/-- The directory or link at a location. -/
def frame? (files : FileSystem) (location : Location) : Option Node :=
  match files.node? location with
  | some (.file _) => none
  | found => found

/-- The file at a location. -/
def fileAt? (files : FileSystem) (location : Location) : Option File :=
  match files.node? location with
  | some (.file file) => some file
  | _ => none

/-- Both have the same directories and links. -/
structure Framed (first second : FileSystem) : Prop where
  start : first.workingLocation = second.workingLocation
  home : first.workingDirectory = second.workingDirectory
  frame : ∀ location, first.frame? location = second.frame? location

namespace Framed

theorem refl (files : FileSystem) : files.Framed files :=
  ⟨rfl, rfl, fun _ => rfl⟩

theorem symm (same : first.Framed second) : second.Framed first :=
  ⟨same.start.symm, same.home.symm, fun location => (same.frame location).symm⟩

theorem trans {third : FileSystem} (same : first.Framed second) (next : second.Framed third) :
    first.Framed third :=
  ⟨same.start.trans next.start, same.home.trans next.home,
    fun location => (same.frame location).trans (next.frame location)⟩

end Framed

private theorem lookup_filter (entries : List (Location × Node)) (location other : Location) :
    (entries.filter fun entry => entry.1 != location).lookup other =
      if other = location then none else entries.lookup other := by
  induction entries with
  | nil => simp
  | cons entry rest ih =>
    obtain ⟨place, found⟩ := entry
    by_cases own : place = location
    · subst own
      rw [List.filter_cons_of_neg (by simp), ih, List.lookup_cons]
      by_cases same : other = place
      · rw [if_pos same, if_pos same]
      · have differ : (other == place) = false := by simpa using same
        rw [if_neg same, if_neg same, differ]
    · rw [List.filter_cons_of_pos (by simpa using own), List.lookup_cons, List.lookup_cons, ih]
      by_cases same : other = place
      · subst same
        simp [own]
      · have differ : (other == place) = false := by simpa using same
        rw [differ]

private theorem node?_of_ne_nil (files : FileSystem) (below : location ≠ []) :
    files.node? location = files.entries.lookup location := by
  unfold node?
  rw [if_neg (by simpa using below)]

@[simp] theorem node?_nil (files : FileSystem) : files.node? [] = some .directory := rfl

theorem node?_put_of_ne {other : Location} (files : FileSystem) (node : Node)
    (differ : other ≠ location) : (files.put location node).node? other = files.node? other := by
  by_cases top : other = []
  · rw [top, node?_nil, node?_nil]
  · have unequal : (other == location) = false := by simpa using differ
    rw [node?_of_ne_nil _ top, node?_of_ne_nil _ top, put, List.lookup_cons, lookup_filter, unequal,
      if_neg differ]

theorem node?_put (files : FileSystem) (below : location ≠ []) (node : Node) (other : Location) :
    (files.put location node).node? other =
      if other = location then some node else files.node? other := by
  by_cases same : other = location
  · rw [if_pos same, same, node?_of_ne_nil _ below, put, List.lookup_cons, beq_self_eq_true]
  · rw [if_neg same, node?_put_of_ne files node same]

theorem node?_erase_of_ne {other : Location} (files : FileSystem) (differ : other ≠ location) :
    (files.erase location).node? other = files.node? other := by
  by_cases top : other = []
  · rw [top, node?_nil, node?_nil]
  · rw [node?_of_ne_nil _ top, node?_of_ne_nil _ top, erase, lookup_filter, if_neg differ]

theorem node?_erase (files : FileSystem) (below : location ≠ []) (other : Location) :
    (files.erase location).node? other = if other = location then none else files.node? other := by
  by_cases same : other = location
  · rw [if_pos same, same, node?_of_ne_nil _ below, erase, lookup_filter, if_pos rfl]
  · rw [if_neg same, node?_erase_of_ne files same]

theorem node?_eq (files : FileSystem) (location : Location) : files.node? location =
    (files.frame? location).or ((files.fileAt? location).map .file) := by
  unfold frame? fileAt?
  cases files.node? location with
  | none => rfl
  | some node => cases node <;> rfl

theorem node?_eq_file {file : File} (there : files.fileAt? location = some file) :
    files.node? location = some (.file file) := by
  unfold fileAt? at there
  split at there
  · rename_i found
    rw [found, Option.some.inj there]
  · cases there

theorem ne_nil_of_frame?_none (free : files.frame? location = none) : location ≠ [] := by
  rintro rfl
  simp [frame?, node?] at free

theorem fileAt?_put (free : files.frame? location = none) (file : File) (other : Location) :
    (files.put location (.file file)).fileAt? other =
      if other = location then some file else files.fileAt? other := by
  unfold fileAt?
  rw [node?_put files (ne_nil_of_frame?_none free)]
  by_cases same : other = location <;> simp [same]

theorem fileAt?_erase (free : files.frame? location = none) (other : Location) :
    (files.erase location).fileAt? other =
      if other = location then none else files.fileAt? other := by
  unfold fileAt?
  rw [node?_erase files (ne_nil_of_frame?_none free)]
  by_cases same : other = location <;> simp [same]

/-- Files are no part of the frame. -/
theorem Framed.put (free : files.frame? location = none) (file : File) :
    files.Framed (files.put location (.file file)) := by
  refine ⟨rfl, rfl, fun other => ?_⟩
  rw [frame?, frame?, node?_put files (ne_nil_of_frame?_none free)]
  by_cases same : other = location
  · subst same
    rw [if_pos rfl]
    exact free
  · rw [if_neg same]

theorem Framed.erase (free : files.frame? location = none) : files.Framed (files.erase location) := by
  refine ⟨rfl, rfl, fun other => ?_⟩
  rw [frame?, frame?, node?_erase files (ne_nil_of_frame?_none free)]
  by_cases same : other = location
  · subst same
    rw [if_pos rfl]
    exact free
  · rw [if_neg same]

end FileSystem

end ShaderBuild
