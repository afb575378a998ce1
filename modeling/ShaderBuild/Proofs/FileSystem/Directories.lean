import ShaderBuild.Proofs.FileSystem.Halt
import ShaderBuild.Proofs.FileSystem.Home
/-!
Creating directories. Nothing but directories is added, and once a directory is there, creating it
again changes nothing.
-/
namespace ShaderBuild

namespace FileSystem

variable {files first second made : FileSystem} {location : Location} {path : Path}

/-- What may become of a location while directories are created and files are rewritten. -/
inductive Grows : Option Node → Option Node → Prop where
  | same (node : Option Node) : Grows node node
  | made : Grows none (some .directory)
  | rewritten (old new : File) : Grows (some (.file old)) (some (.file new))

/-- The second has the files and links of the first, whatever the files hold, and its directories,
perhaps with more of these. -/
structure Grown (first second : FileSystem) : Prop where
  start : first.workingLocation = second.workingLocation
  home : first.workingDirectory = second.workingDirectory
  node : ∀ location, Grows (first.node? location) (second.node? location)

namespace Grown

theorem refl (files : FileSystem) : files.Grown files :=
  ⟨rfl, rfl, fun _ => .same _⟩

theorem trans {third : FileSystem} (grown : first.Grown second) (next : second.Grown third) :
    first.Grown third := by
  refine ⟨grown.start.trans next.start, grown.home.trans next.home, fun location => ?_⟩
  have before := grown.node location
  have after := next.node location
  revert before after
  generalize first.node? location = one
  generalize second.node? location = two
  generalize third.node? location = three
  intro before after
  cases before with
  | same => exact after
  | made =>
    cases after
    exact .made
  | rewritten old new =>
    cases after with
    | same => exact .rewritten old new
    | rewritten _ newer => exact .rewritten old newer

/-- Directories stay. -/
theorem directory (grown : first.Grown second) (there : first.node? location = some .directory) :
    second.node? location = some .directory := by
  have known := grown.node location
  rw [there] at known
  generalize second.node? location = node at known
  cases known
  rfl

/-- A file that is there was there before. -/
theorem fileAt? {file : File} (grown : first.Grown second)
    (there : second.fileAt? location = some file) : (first.fileAt? location).isSome := by
  have known := grown.node location
  unfold FileSystem.fileAt? at there ⊢
  revert known there
  generalize first.node? location = one
  generalize second.node? location = two
  intro there known
  cases known with
  | same =>
    split at there <;> simp_all
  | made => simp at there
  | rewritten => rfl

theorem congr_home (grown : first.Grown second) (home : first.Home) : second.Home := by
  refine ⟨?_, ?_, fun location within => ?_⟩
  · rw [← grown.home, ← grown.start]
    exact home.written
  · rw [← grown.start]
    exact home.names
  · exact grown.directory (home.directories location (grown.start ▸ within))

theorem absolute (grown : first.Grown second) (path : Path) :
    second.absolute path = first.absolute path :=
  congrFun (absolute_congr grown.home.symm) path

/-- A file that takes the place of another. -/
theorem put_file {old : File} (there : files.fileAt? location = some old)
    (free : files.frame? location = none) (new : File) :
    files.Grown (files.put location (.file new)) := by
  refine ⟨rfl, rfl, fun other => ?_⟩
  rw [node?_put files (ne_nil_of_frame?_none free)]
  by_cases same : other = location
  · subst same
    rw [if_pos rfl]
    unfold FileSystem.fileAt? at there
    split at there
    · rename_i file found
      rw [found]
      exact .rewritten file new
    · simp at there
  · rw [if_neg same]
    exact .same _

end Grown

private theorem Grown.frame? (grown : first.Grown second) (location : Location) :
    second.frame? location = first.frame? location ∨
      first.frame? location = none ∧ second.frame? location = some .directory := by
  have known := grown.node location
  unfold FileSystem.frame?
  generalize first.node? location = one at known ⊢
  generalize second.node? location = two at known ⊢
  cases known with
  | same => exact .inl rfl
  | made => exact .inr ⟨rfl, rfl⟩
  | rewritten => exact .inl rfl

private theorem walkHalt_grown (grown : first.Grown second) (aim : Aim) (links : Nat)
    (here : Location) (steps : List Step) :
    second.walkHalt aim links here steps = first.walkHalt aim links here steps ∨
      ∃ location ends, first.walkHalt aim links here steps = .site location ends ∧
        second.frame? location = some .directory ∧
        (ends = true → second.walkHalt aim links here steps =
          .settled (.ok (.occupied location .directory))) := by
  induction links, here, steps using walk_induction with
  | arrived links here =>
    rw [walkHalt, walkHalt]
    exact .inl rfl
  | stay links here rest ih => rwa [walkHalt, walkHalt]
  | slash links here rest ih => rwa [walkHalt, walkHalt]
  | up links here rest ih => rwa [walkHalt, walkHalt]
  | enter links here name rest ih follow =>
    rw [walkHalt, walkHalt]
    split
    · exact .inl rfl
    split
    · exact .inl rfl
    dsimp only
    rcases grown.frame? (here ++ [name]) with same | ⟨absent, made⟩
    · rw [same]
      split
      · exact ih
      · split
        · exact .inl rfl
        · cases links with
          | zero => exact .inl rfl
          | succ fewer => exact follow fewer (Nat.lt_succ_self _) _ _
      · exact .inl rfl
    -- Where the directory was made the walk had stopped.
    · rw [absent, made]
      refine .inr ⟨_, _, rfl, made, fun ends => ?_⟩
      rw [List.isEmpty_iff.mp ends, walkHalt]

private theorem halt_grown (grown : first.Grown second) (aim : Aim) (path : Path) :
    second.halt aim path = first.halt aim path ∨
      ∃ location ends, first.halt aim path = .site location ends ∧
        second.frame? location = some .directory ∧
        (ends = true → second.halt aim path =
          .settled (.ok (.occupied location .directory))) := by
  unfold halt
  split
  · exact .inl rfl
  split
  · exact .inl rfl
  split
  · exact .inl rfl
  · rw [← grown.start]
    exact walkHalt_grown grown _ _ _ _

theorem Grown.file?_vacant (grown : first.Grown second)
    (found : first.locate .target path = .ok (.vacant location)) : second.file? path = none := by
  have leads : outlet (first.locate .target path) = some location := by rw [found]; rfl
  have halts := outlet_locate_eq_some.mp leads
  unfold FileSystem.file? FileSystem.outlet?
  rcases halt_grown grown .target path with same | ⟨there, ends, other, _, made⟩
  · rw [outlet_locate_eq_some.mpr (same.trans halts), Option.bind_some]
    by_contra present
    obtain ⟨file, present⟩ := Option.ne_none_iff_exists'.mp present
    have absent := node?_of_locate found (by simp [Place.node?])
    have before := grown.fileAt? present
    simp only [Place.location, Place.node?] at absent
    simp [FileSystem.fileAt?, absent] at before
  · obtain ⟨rfl, rfl⟩ := Halt.site.inj (halts.symm.trans other)
    rw [locate_eq_directory.mpr (made rfl)]
    rfl

/-- A path that leads to a file goes on to lead there. -/
theorem Grown.outlet? (grown : first.Grown second) (leads : first.outlet? path = some location)
    (present : (first.fileAt? location).isSome) : second.outlet? path = some location := by
  have halts := outlet_locate_eq_some.mp leads
  rcases halt_grown grown .target path with same | ⟨site, ends, other, made, _⟩
  · exact outlet_locate_eq_some.mpr (same.trans halts)
  · obtain ⟨rfl, rfl⟩ := Halt.site.inj (halts.symm.trans other)
    have known := grown.node location
    unfold FileSystem.frame? at made
    unfold FileSystem.fileAt? at present
    revert known made present
    generalize first.node? location = one
    generalize second.node? location = two
    intro present made known
    cases known with
    | same => split at present <;> simp_all
    | made => simp at present
    | rewritten => simp at made

theorem makeDirectory_eq_ok :
    files.makeDirectory path = .ok made ↔
      ∃ location, files.locate .node path = .ok (.vacant location) ∧
        made = files.put location .directory := by
  unfold makeDirectory
  split <;> rename_i found <;> simp [found, eq_comm]

private theorem vacant_of_locate (found : files.locate .node path = .ok (.vacant location)) :
    files.node? location = none ∧ location ≠ [] := by
  have absent := node?_of_locate found (by simp [Place.node?])
  refine ⟨absent, ?_⟩
  rintro rfl
  simp [Place.location, Place.node?] at absent

theorem grown_makeDirectory (done : files.makeDirectory path = .ok made) : files.Grown made := by
  obtain ⟨location, found, rfl⟩ := makeDirectory_eq_ok.mp done
  obtain ⟨absent, below⟩ := vacant_of_locate found
  refine ⟨rfl, rfl, fun other => ?_⟩
  rw [node?_put files below]
  by_cases same : other = location
  · subst same
    rw [if_pos rfl, absent]
    exact .made
  · rw [if_neg same]
    exact .same _

/-- No file comes or goes where a directory is created. -/
theorem fileAt?_makeDirectory (done : files.makeDirectory path = .ok made) (other : Location) :
    made.fileAt? other = files.fileAt? other := by
  obtain ⟨location, found, rfl⟩ := makeDirectory_eq_ok.mp done
  obtain ⟨absent, below⟩ := vacant_of_locate found
  unfold fileAt?
  rw [node?_put files below]
  by_cases same : other = location
  · rw [if_pos same, same, absent]
  · rw [if_neg same]

/-- A directory that can be created can be created through the same frame, if no file is in its
place. -/
theorem makeDirectory_framed (framed : first.Framed second)
    (absent : ∀ location, first.fileAt? location = none → second.fileAt? location = none)
    (done : first.makeDirectory path = .ok made) :
    ∃ madeToo, second.makeDirectory path = .ok madeToo ∧ made.Framed madeToo := by
  obtain ⟨location, found, rfl⟩ := makeDirectory_eq_ok.mp done
  obtain ⟨vacant, below⟩ := vacant_of_locate found
  have halts := outlet_locate_eq_some.mp (show outlet (first.locate .node path) = some location by
    rw [found]; rfl)
  have foundToo : second.locate .node path = .ok (.vacant location) := by
    have free : first.fileAt? location = none := by rw [fileAt?, vacant]
    rw [locate_eq_place, ← framed.halt, halts, Halt.place, absent location free]
    rfl
  refine ⟨_, makeDirectory_eq_ok.mpr ⟨location, foundToo, rfl⟩, framed.start, framed.home, ?_⟩
  intro other
  have frame := framed.frame other
  unfold frame? at frame ⊢
  rw [node?_put _ below, node?_put _ below]
  by_cases same : other = location
  · rw [if_pos same, if_pos same]
  · rw [if_neg same, if_neg same, frame]

/-- Chains of directories go the same way where each single directory does. -/
theorem makeChain_congr {related : FileSystem → FileSystem → Prop} {paths : List Path}
    (make : ∀ path ∈ paths, ∀ first second, related first second →
      (∃ problem, first.makeDirectory path = .error problem ∧
        second.makeDirectory path = .error problem) ∨
      ∃ made madeToo, first.makeDirectory path = .ok made ∧
        second.makeDirectory path = .ok madeToo ∧ related made madeToo)
    (directory : ∀ path ∈ paths, ∀ first second, related first second →
      first.isDirectory path = second.isDirectory path)
    (start : related first second) :
    (first.makeChain paths).1 = (second.makeChain paths).1 ∧
      related (first.makeChain paths).2 (second.makeChain paths).2 := by
  induction paths with
  | nil => exact ⟨rfl, start⟩
  | cons path outer ih =>
    obtain ⟨answers, below⟩ := ih (fun path member => make path (List.mem_cons_of_mem _ member))
      fun path member => directory path (List.mem_cons_of_mem _ member)
    have makes := make path List.mem_cons_self
    have directories := directory path List.mem_cons_self
    rw [makeChain, makeChain]
    split
    · exact ⟨rfl, start⟩
    rcases makes _ _ start with ⟨problem, one, two⟩ | ⟨made, madeToo, one, two, rest⟩
    · rw [one, two]
      -- Only after a missing parent the outer directories are made, and this one is tried again.
      by_cases missing : problem = .notFound
      · subst missing
        dsimp only
        revert answers below
        obtain ⟨answer, whole⟩ := first.makeChain outer
        obtain ⟨other, wholeToo⟩ := second.makeChain outer
        rintro rfl below
        cases answer with
        | error problem => exact ⟨rfl, below⟩
        | ok =>
          dsimp only
          rcases makes _ _ below with ⟨problem, one, two⟩ | ⟨made, madeToo, one, two, rest⟩
          · rw [one, two, directories _ _ below]
            exact ⟨rfl, below⟩
          · rw [one, two]
            exact ⟨rfl, rest⟩
      · rw [directories _ _ start]
        cases problem with
        | notFound => exact absurd rfl missing
        | _ => exact ⟨rfl, start⟩
    · rw [one, two]
      exact ⟨rfl, rest⟩

/-- What stays while a single directory is created stays while a chain is. -/
theorem makeChain_induction {motive : FileSystem → Prop} {paths : List Path}
    (make : ∀ path ∈ paths, ∀ files made, files.makeDirectory path = .ok made →
      motive files → motive made)
    (start : motive files) : motive (files.makeChain paths).2 := by
  refine (@makeChain_congr files files (fun first second => first = second ∧ motive first) paths
    (fun path member first second => ?_) (fun path _ first second => ?_) ⟨rfl, start⟩).2.2
  · rintro ⟨rfl, holds⟩
    cases done : first.makeDirectory path with
    | error problem => exact .inl ⟨problem, rfl, rfl⟩
    | ok made => exact .inr ⟨made, made, rfl, rfl, rfl, make path member _ _ done holds⟩
  · rintro ⟨rfl, _⟩
    rfl

theorem grown_makeDirectories (files : FileSystem) (path : Path) :
    files.Grown (files.makeDirectories path).2 :=
  makeChain_induction (motive := files.Grown)
    (fun _ _ _ _ done grown => grown.trans (grown_makeDirectory done)) (.refl files)

theorem isDirectory_iff :
    files.isDirectory path = true ↔
      ∃ location, files.locate .target path = .ok (.occupied location .directory) := by
  unfold isDirectory
  split <;> rename_i found
  · simp [found]
  · constructor
    · simp
    · rintro ⟨location, same⟩
      exact absurd same (found location)

theorem Grown.locate_directory (grown : first.Grown second)
    (found : first.locate .target path = .ok (.occupied location .directory)) :
    second.locate .target path = .ok (.occupied location .directory) := by
  have halts := locate_eq_directory.mp found
  refine locate_eq_directory.mpr ?_
  rcases halt_grown grown .target path with same | ⟨site, ends, other, _, _⟩
  · rw [same, halts]
  · cases halts.symm.trans other

theorem Grown.isDirectory (grown : first.Grown second) (there : first.isDirectory path = true) :
    second.isDirectory path = true := by
  obtain ⟨location, found⟩ := isDirectory_iff.mp there
  exact isDirectory_iff.mpr ⟨location, grown.locate_directory found⟩

theorem Framed.isDirectory (same : first.Framed second) (path : Path) :
    first.isDirectory path = second.isDirectory path := by
  rw [Bool.eq_iff_iff, isDirectory_iff, isDirectory_iff]
  simp only [locate_eq_directory, same.halt]

private theorem walk_made {links : Nat} {here : Location} {steps : List Step} (tail : List Step)
    (absent : files.node? location = none) (below : location ≠ [])
    (ends : tail = [] ∨ tail = [.slash])
    (found : files.walk .node links here steps = .ok (.vacant location)) :
    (files.put location .directory).walk .target links here (steps ++ tail) =
      .ok (.occupied location .directory) := by
  induction links, here, steps using walk_induction with
  | arrived links here =>
    rw [walk] at found
    simp at found
  | stay links here rest ih =>
    rw [walk] at found
    rw [List.cons_append, walk]
    exact ih found
  | slash links here rest ih =>
    rw [walk] at found
    rw [List.cons_append, walk]
    exact ih found
  | up links here rest ih =>
    rw [walk] at found
    rw [List.cons_append, walk]
    exact ih found
  | enter links here name rest ih follow =>
    rw [walk, if_neg (by simp)] at found
    rw [List.cons_append, walk, if_neg (by simp)]
    by_cases long : Text.byteLength name > maximalName
    · simp [long] at found
    · rw [if_neg long] at found ⊢
      dsimp only at found ⊢
      rw [node?_put files below]
      cases there : files.node? (here ++ [name]) with
      | none =>
        rw [there] at found
        -- The walk ends at this name, and the tail stays in the directory that is made there.
        by_cases last : rest = []
        · subst last
          obtain rfl : here ++ [name] = location := by simpa using found
          rw [if_pos rfl, List.nil_append]
          rcases ends with rfl | rfl <;> simp [walk]
        · simp [last] at found
      | some node =>
        rw [if_neg fun same => by simp [same, absent] at there]
        rw [there] at found
        cases node with
        | directory => exact ih found
        | file file => by_cases last : rest = [] <;> simp [last] at found
        | link target =>
          dsimp only at found ⊢
          split at found
          · simp at found
          · rw [if_neg (by simp)]
            cases links with
            | zero => simp at found
            | succ fewer =>
              have goes := follow fewer (Nat.lt_succ_self _) _ _ found
              rwa [List.append_assoc] at goes

private theorem occupied_of_walk {links : Nat} {here : Location} {steps tail : List Step}
    (found : files.walk .target links here (steps ++ tail) = .ok (.occupied location .directory)) :
    ∃ there node, files.walk .node links here steps = .ok (.occupied there node) := by
  induction links, here, steps using walk_induction with
  | arrived links here => exact ⟨here, .directory, by rw [walk]⟩
  | stay links here rest ih =>
    rw [List.cons_append, walk] at found
    rw [walk]
    exact ih found
  | slash links here rest ih =>
    rw [List.cons_append, walk] at found
    rw [walk]
    exact ih found
  | up links here rest ih =>
    rw [List.cons_append, walk] at found
    rw [walk]
    exact ih found
  | enter links here name rest ih follow =>
    rw [List.cons_append, walk, if_neg (by simp)] at found
    rw [walk, if_neg (by simp)]
    by_cases long : Text.byteLength name > maximalName
    · simp [long] at found
    · rw [if_neg long] at found ⊢
      dsimp only at found ⊢
      cases there : files.node? (here ++ [name]) with
      | none =>
        rw [there] at found
        by_cases last : rest ++ tail = [] <;> simp [last] at found
      | some node =>
        rw [there] at found
        cases node with
        | directory => exact ih found
        | file file => by_cases last : rest ++ tail = [] <;> simp [last] at found
        | link target =>
          dsimp only at found ⊢
          have goes : ((rest ++ tail).isEmpty && Aim.target == .node) = false := by simp
          by_cases last : rest = []
          · exact ⟨here ++ [name], .link target, by simp [last]⟩
          · have goesToo : (rest.isEmpty && Aim.node == .node) = false := by simp [last]
            rw [goes, if_neg Bool.false_ne_true] at found
            rw [goesToo, if_neg Bool.false_ne_true]
            cases links with
            | zero => simp at found
            | succ fewer =>
              rw [← List.append_assoc] at found
              exact follow fewer (Nat.lt_succ_self _) _ _ found

theorem locate_of_makeDirectory (done : files.makeDirectory path = .ok made) :
    ∃ location, files.node? location = none ∧ location ≠ [] ∧
      made = files.put location .directory ∧
      made.locate .target path = .ok (.occupied location .directory) := by
  obtain ⟨location, found, rfl⟩ := makeDirectory_eq_ok.mp done
  obtain ⟨absent, below⟩ := vacant_of_locate found
  refine ⟨location, absent, below, rfl, ?_⟩
  rcases locate_cases path with ⟨problem, refused⟩ | ⟨_, walks⟩
  · simp [refused] at found
  · rw [walks, if_pos rfl] at found
    rw [walks, if_neg (c := Aim.target = .node) (by simp), Path.wholeSteps]
    cases path.endsInSlash with
    | true => exact walk_made [.slash] absent below (.inr rfl) found
    | false =>
      have ends := walk_made [] absent below (.inl rfl) found
      rwa [List.append_nil] at ends

theorem isDirectory_of_makeDirectory (done : files.makeDirectory path = .ok made) :
    made.isDirectory path = true := by
  obtain ⟨location, _, _, _, leads⟩ := locate_of_makeDirectory done
  exact isDirectory_iff.mpr ⟨location, leads⟩

/-- A chain of directories adds directories to which its paths lead, and changes nothing else. -/
theorem node?_makeChain (files : FileSystem) (paths : List Path) (location : Location) :
    (files.makeChain paths).2.node? location = files.node? location ∨
      files.node? location = none ∧
        (files.makeChain paths).2.node? location = some .directory ∧
        ∃ path ∈ paths, (files.makeChain paths).2.locate .target path =
          .ok (.occupied location .directory) := by
  refine makeChain_induction (motive := fun now => now.node? location = files.node? location ∨
      files.node? location = none ∧ now.node? location = some .directory ∧
        ∃ path ∈ paths, now.locate .target path = .ok (.occupied location .directory))
    (fun path member now made done earlier => ?_) (.inl rfl)
  obtain ⟨place, absent, below, rfl, leads⟩ := locate_of_makeDirectory done
  rw [node?_put now below]
  by_cases own : location = place
  · subst own
    rcases earlier with same | ⟨_, there, _⟩
    · exact .inr ⟨same.symm.trans absent, if_pos rfl, path, member, leads⟩
    · cases absent.symm.trans there
  · rw [if_neg own]
    rcases earlier with same | ⟨fresh, there, other, listed, leadsToo⟩
    · exact .inl same
    · exact .inr ⟨fresh, there, other, listed, (grown_makeDirectory done).locate_directory leadsToo⟩

theorem makeDirectory_of_isDirectory (there : files.isDirectory path = true) :
    files.makeDirectory path = .error .alreadyExists := by
  obtain ⟨location, found⟩ := isDirectory_iff.mp there
  suffices ∃ place node, files.locate .node path = .ok (.occupied place node) by
    obtain ⟨place, node, occupied⟩ := this
    simp [makeDirectory, occupied]
  rcases locate_cases path with ⟨problem, refused⟩ | ⟨_, walks⟩
  · simp [refused] at found
  · rw [walks, if_neg (c := Aim.target = .node) (by simp), Path.wholeSteps] at found
    rw [walks, if_pos rfl]
    cases slash : path.endsInSlash with
    | true =>
      rw [slash, if_pos rfl] at found
      exact occupied_of_walk found
    | false =>
      rw [slash, if_neg Bool.false_ne_true, ← List.append_nil path.steps] at found
      exact occupied_of_walk found

/-- The directory is there, or its path is one that is not made. -/
def Settled (files : FileSystem) (path : Path) : Prop :=
  path.text = [] ∨ path.parent? = none ∨ files.isDirectory path = true

theorem Framed.settled (same : first.Framed second) (settled : first.Settled path) :
    second.Settled path := by
  unfold Settled at settled ⊢
  rwa [← same.isDirectory]

theorem settled_of_makeDirectories (done : files.makeDirectories path = (.ok (), made)) :
    made.Settled path := by
  unfold makeDirectories at done
  rw [makeChain] at done
  split at done
  · rename_i skipped
    rw [Bool.or_eq_true, List.isEmpty_iff, Option.isNone_iff_eq_none] at skipped
    exact skipped.imp_right .inl
  · refine .inr (.inr ?_)
    split at done
    · obtain rfl := (Prod.mk.inj done).2
      exact isDirectory_of_makeDirectory ‹_›
    · split at done
      · simp at done
      · split at done
        · obtain rfl := (Prod.mk.inj done).2
          exact isDirectory_of_makeDirectory ‹_›
        · obtain ⟨answer, rfl⟩ := Prod.mk.inj done
          by_contra absent
          simp [absent] at answer
    · obtain ⟨answer, rfl⟩ := Prod.mk.inj done
      by_contra absent
      simp [absent] at answer

/-- What is there already is left as it is. -/
theorem makeDirectories_of_settled (settled : files.Settled path) :
    files.makeDirectories path = (.ok (), files) := by
  unfold makeDirectories
  rw [makeChain]
  by_cases skipped : (path.text.isEmpty || path.parent?.isNone) = true
  · rw [if_pos skipped]
  · rw [if_neg skipped]
    have there : files.isDirectory path = true := by
      rcases settled with empty | none | there
      · simp [empty] at skipped
      · simp [none] at skipped
      · exact there
    rw [makeDirectory_of_isDirectory there]
    dsimp only
    rw [if_pos there]

end FileSystem

end ShaderBuild
