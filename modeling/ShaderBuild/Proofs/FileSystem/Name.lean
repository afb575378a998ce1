import Mathlib.Data.List.Basic
import ShaderBuild.Proofs.FileSystem.Rename
import ShaderBuild.Proofs.Path.Components
/-!
The names of files. A path that leads to a file ends with a name, and where no link stands at the path
that is the last name of the location of the file.
-/
namespace ShaderBuild

namespace Path

variable {path : Path} {base name : Text}

/-- The last step of a path is that of its last part, and those before it are of its directory part. -/
theorem Ends.steps (ends : path.Ends base name) : path.steps =
    Path.steps ⟨base⟩ ++ [if name = ['.', '.'] then .up else .enter name] := by
  obtain ⟨front, splits⟩ := ends.base.splitOn
  have directory : Text.splitOn '/' base = front ++ [[]] := by
    rw [← splits [] (by simp), List.append_nil]
  have solid := ends.solid
  simp only [isFiller, Bool.or_eq_false_iff, beq_eq_false_iff_ne] at solid
  rw [Path.steps, Path.steps, ends.text, splits name ends.whole, directory, List.filterMap_append,
    List.filterMap_append]
  by_cases up : name = ['.', '.'] <;> simp [solid, up]

theorem Ends.getLast?_steps (ends : path.Ends base name) :
    path.steps.getLast? = some (if name = ['.', '.'] then .up else .enter name) := by
  rw [ends.steps, List.getLast?_concat]

theorem ends_of_steps (plain : path.endsInSlash = false)
    (last : path.steps.getLast? = some (.enter name)) :
    ∃ base, path.Ends base name ∧ name ≠ ['.', '.'] := by
  obtain ⟨base, own, text, is, whole⟩ := exists_base path.text
  have solid : isFiller own = false := by
    by_contra filler
    rw [Bool.not_eq_false, isFiller, Bool.or_eq_true, beq_iff_eq, beq_iff_eq] at filler
    rcases filler with rfl | rfl
    · rw [List.append_nil] at text
      rcases is with rfl | ⟨front, rfl⟩
      · simp [steps, text, Text.splitOn] at last
      · simp [endsInSlash, text] at plain
    · obtain ⟨front, splits⟩ := is.splitOn
      simp [steps, text, splits _ whole] at last
  have ends : path.Ends base own := ⟨text, is, whole, solid⟩
  have same := ends.getLast?_steps.symm.trans last
  split at same
  · cases same
  · obtain rfl := Step.enter.inj (Option.some.inj same)
    exact ⟨base, ends, ‹_›⟩

end Path

namespace FileSystem

variable {files : FileSystem} {aim : Aim} {links : Nat} {here location : Location}
  {steps : List Step} {place : Place} {name : Text} {path : Path}

private theorem location_of_walk (found : files.walk .node links here [.enter name] = .ok place) :
    place.location = here ++ [name] := by
  rw [walk, if_neg (by simp)] at found
  split at found
  · cases found
  dsimp only at found
  cases stands : files.node? (here ++ [name]) with
  | none =>
    rw [stands] at found
    exact congrArg Place.location (Except.ok.inj found).symm
  | some node =>
    rw [stands] at found
    cases node with
    | directory =>
      dsimp only at found
      rw [walk] at found
      exact congrArg Place.location (Except.ok.inj found).symm
    | file file => exact congrArg Place.location (Except.ok.inj found).symm
    | link target => exact congrArg Place.location (Except.ok.inj found).symm

/-- A walk to a node that ends by entering a name comes to a directory first, and ends below it. -/
theorem directory_of_walk (found : files.walk .node links here (steps ++ [.enter name]) = .ok place) :
    ∃ directory, files.walk .target links here steps = .ok (.occupied directory .directory) ∧
      place.location = directory ++ [name] := by
  induction links, here, steps using walk_induction with
  | arrived links here => exact ⟨here, by rw [walk], location_of_walk found⟩
  | stay links here rest ih =>
    rw [List.cons_append, walk] at found
    rw [walk]
    exact ih found
  | slash links here rest ih =>
    rw [List.cons_append, walk] at found
    rw [walk]
    exact ih found
  | up links here rest ih =>
    rw [List.cons_append, walk] at found
    rw [walk]
    exact ih found
  | enter links here entered rest ih follow =>
    have more : (rest ++ [Step.enter name]).isEmpty = false := by simp
    rw [List.cons_append, walk, if_neg (by simp)] at found
    rw [walk, if_neg (by simp)]
    split at found
    · cases found
    rename_i short
    rw [if_neg short]
    dsimp only at found ⊢
    cases stands : files.node? (here ++ [entered]) with
    | none => simp [stands] at found
    | some node =>
      rw [stands] at found
      cases node with
      | file file => simp at found
      | directory => exact ih found
      | link target =>
        dsimp only at found ⊢
        rw [more, if_neg (by simp)] at found
        rw [if_neg (by simp)]
        cases links with
        | zero => cases found
        | succ fewer =>
          -- The steps of the target come first, and the name is still the last.
          rw [← List.append_assoc] at found
          exact follow fewer (Nat.lt_succ_self _) _ _ found

theorem getLast?_of_walk (found : files.walk .node links here steps = .ok place)
    (last : steps.getLast? = some (.enter name)) : place.location.getLast? = some name := by
  obtain ⟨front, rfl⟩ := List.getLast?_eq_some_iff.mp last
  obtain ⟨directory, _, below⟩ := directory_of_walk found
  rw [below, List.getLast?_concat]

theorem ends_of_outlet? (leads : files.outlet? path = some location) :
    ∃ base name, path.Ends base name ∧ name ≠ ['.', '.'] := by
  obtain ⟨_, plain, walks⟩ := outlet?_eq_some.mp leads
  obtain ⟨name, last⟩ := enters_of_outlet walks
  obtain ⟨base, ends⟩ := Path.ends_of_steps plain last
  exact ⟨base, name, ends⟩

theorem outlet?_up {base : Text} (ends : path.Ends base ['.', '.']) : files.outlet? path = none := by
  by_contra some
  obtain ⟨location, leads⟩ := Option.ne_none_iff_exists'.mp some
  obtain ⟨name, last⟩ := enters_of_outlet (outlet?_eq_some.mp leads).2.2
  cases ends.getLast?_steps.symm.trans last

theorem getLast?_of_spot? {base : Text} (ends : path.Ends base name) (proper : name ≠ ['.', '.'])
    (stands : files.spot? path = some location) : location.getLast? = some name := by
  obtain ⟨place, found, leads⟩ := outlet_eq_some.mp stands
  have last := ends.getLast?_steps
  rw [if_neg proper] at last
  rcases locate_cases path with ⟨problem, refused⟩ | ⟨_, walks⟩
  · simp [refused] at found
  · rw [walks, if_pos rfl] at found
    rw [← Place.location_of_outlet? leads]
    exact getLast?_of_walk found last

/-- The location of the directory in which what follows the last slash of a path is looked up. -/
def folder? (files : FileSystem) (path : Path) : Option Location :=
  match files.walk .target maximalLinks (if path.isAbsolute then [] else files.workingLocation)
      path.folder.steps with
  | .ok (.occupied location .directory) => some location
  | _ => none

theorem folder?_of_outlet? (leads : files.outlet? path = some location)
    (bare : ∀ there target, files.locate .node path ≠ .ok (.occupied there (.link target))) :
    ∃ directory, files.folder? path = some directory ∧ location = directory ++ [path.leaf] := by
  obtain ⟨base, name, ends, proper⟩ := ends_of_outlet? leads
  obtain ⟨folder, leaf⟩ := ends.folder_leaf
  have steps := ends.steps
  rw [if_neg proper, ← folder, ← leaf] at steps
  have stands := spot?_of_outlet? (outlet?_eq_some.mp leads).2.1 bare leads
  obtain ⟨place, found, own⟩ := outlet_eq_some.mp stands
  rcases locate_cases path with ⟨problem, refused⟩ | ⟨_, walks⟩
  · simp [refused] at found
  · rw [walks, if_pos rfl, steps] at found
    obtain ⟨directory, comes, below⟩ := directory_of_walk found
    refine ⟨directory, ?_, (Place.location_of_outlet? own).symm.trans below⟩
    rw [folder?, comes]

theorem folder?_extend (files : FileSystem) (path : Path) {suffix : String}
    (apart : '/' ∉ suffix.toList) : files.folder? (path.extend suffix) = files.folder? path := by
  have root : (path.extend suffix).isAbsolute = path.isAbsolute := by
    obtain ⟨text⟩ := path
    cases text with
    | nil =>
      have relative : suffix.toList.head? ≠ some '/' := fun slash =>
        apart (List.mem_of_mem_head? slash)
      simpa [Path.isAbsolute, Path.extend] using relative
    | cons c rest => rfl
  rw [folder?, folder?, root, (path.folder_leaf_extend apart).1]

end FileSystem

end ShaderBuild
