import ShaderBuild.Proofs.FileSystem.Outlet
import ShaderBuild.Proofs.Path.Absolute
/-!
The working directory, and absolute paths below it: the absolute form of a path is its own absolute
form, and leads where the path leads.
-/
namespace ShaderBuild

/-- A name that can stand in a directory. -/
structure IsName (name : Text) : Prop where
  kept : Path.Kept name
  notUp : name ≠ ['.', '.']
  short : Text.byteLength name ≤ FileSystem.maximalName
  noNul : '\x00' ∉ name

/-- The same steps, without some that stay where they are. -/
inductive Thinned : List Step → List Step → Prop
  | nil : Thinned [] []
  | keep {steps kept : List Step} (step : Step) (rest : Thinned steps kept) :
      Thinned (step :: steps) (step :: kept)
  | drop {steps kept : List Step} (rest : Thinned steps kept) : Thinned (.stay :: steps) kept

namespace Thinned

theorem append {steps kept : List Step} (front : List Step) (rest : Thinned steps kept) :
    Thinned (front ++ steps) (front ++ kept) := by
  induction front with
  | nil => exact rest
  | cons step front ih => exact ih.keep step

end Thinned

theorem Path.thinned_steps (path : Path) : Thinned path.steps (path.solid.map Path.stepOf) := by
  unfold steps solid
  induction Text.splitOn '/' path.text with
  | nil => exact .nil
  | cons part parts ih =>
    by_cases empty : part = []
    · simpa [empty, isFiller] using ih
    by_cases here : part = ['.']
    · simpa [here, isFiller] using ih.drop
    have solid : isFiller part = false := by simp [isFiller, empty, here]
    by_cases up : part = ['.', '.']
    · simpa [up, isFiller, stepOf] using ih.keep .up
    · simpa [empty, here, up, solid, stepOf] using ih.keep (.enter part)

namespace FileSystem

/-- The working directory is a directory, and its path is that of its location. -/
structure Home (files : FileSystem) : Prop where
  written : files.workingDirectory = Path.written ['/'] files.workingLocation false
  names : ∀ name ∈ files.workingLocation, IsName name
  directories : ∀ location, location <+: files.workingLocation →
    files.node? location = some .directory

variable {files : FileSystem} {path other : Path} {location : Location}

theorem absolute_congr {first second : FileSystem}
    (home : second.workingDirectory = first.workingDirectory) :
    second.absolute = first.absolute := by
  funext path
  rw [absolute, absolute, home]

namespace Home

theorem kept (home : files.Home) : ∀ name ∈ files.workingLocation, Path.Kept name :=
  fun name member => (home.names name member).kept

theorem congr {second : FileSystem} (home : files.Home) (same : files.Framed second) :
    second.Home := by
  refine ⟨?_, ?_, fun location within => ?_⟩
  · rw [← same.home, ← same.start]
    exact home.written
  · rw [← same.start]
    exact home.names
  · rw [← same.start] at within
    have frame := same.frame location
    rw [frame?, home.directories location within, frame?] at frame
    dsimp only at frame
    split at frame
    · simp at frame
    · exact frame.symm

end Home

theorem absolute_absolute (home : files.Home) (path : Path) :
    files.absolute (files.absolute path) = files.absolute path := by
  unfold absolute
  rw [home.written]
  cases found : Path.absolute? (Path.written ['/'] files.workingLocation false) path with
  | none => simp [found]
  | some whole =>
    rw [Option.getD_some, Path.absolute?_absolute? home.kept found, Option.getD_some]

/-- The names on the way to a path: those of the working directory, if the path is relative, and its
own. -/
def way (files : FileSystem) (path : Path) : List Text :=
  (if path.isAbsolute then [] else files.workingLocation) ++ path.solid

private theorem kept_way (home : files.Home) (path : Path) :
    ∀ part ∈ files.way path, Path.Kept part := by
  intro part member
  rcases List.mem_append.mp member with old | new
  · split at old
    · simp at old
    · exact home.kept part old
  · exact Path.kept_of_mem_solid new

theorem absolute_eq (home : files.Home) (nonempty : path.text ≠ []) :
    files.absolute path = Path.written path.lead (files.way path) path.endsInSlash := by
  rw [absolute, home.written, Path.absolute?_eq home.kept nonempty]
  rfl

private theorem walk_names {names : List Text} {here : Location} {steps : List Step} {aim : Aim}
    (links : Nat) (other : aim ≠ .creation)
    (short : ∀ name ∈ names, Text.byteLength name ≤ maximalName)
    (directories : ∀ front, front <+: names → files.node? (here ++ front) = some .directory) :
    files.walk aim links here (names.map .enter ++ steps) =
      files.walk aim links (here ++ names) steps := by
  induction names generalizing here with
  | nil => simp
  | cons name names ih =>
    have there : files.node? (here ++ [name]) = some .directory :=
      directories [name] (by simp)
    have fits := short name List.mem_cons_self
    rw [List.map_cons, List.cons_append, walk, if_neg fun closed => other closed.1,
      if_neg (Nat.not_lt.mpr fits)]
    dsimp only
    rw [there]
    dsimp only
    rw [ih (fun own member => short own (List.mem_cons_of_mem _ member))]
    · rw [List.append_assoc, List.singleton_append]
    · intro front within
      rw [List.append_assoc, List.singleton_append]
      exact directories (name :: front) (List.cons_prefix_cons.mpr ⟨rfl, within⟩)

private theorem walk_way (home : files.Home) (path : Path) :
    files.walk .target maximalLinks [] ((files.way path).map Path.stepOf) =
      files.walk .target maximalLinks (if path.isAbsolute then [] else files.workingLocation)
        (path.solid.map Path.stepOf) := by
  unfold way
  by_cases rooted : path.isAbsolute = true
  · rw [if_pos rooted, List.nil_append]
  · have names : files.workingLocation.map Path.stepOf = files.workingLocation.map Step.enter :=
      List.map_congr_left fun name member => if_neg (home.names name member).notUp
    rw [if_neg rooted, List.map_append, names, walk_names _ (by simp)
      (fun name member => (home.names name member).short)
      (fun front within => home.directories front within), List.nil_append]

theorem getLast?_steps (leads : files.outlet? path = some location) :
    path.steps.getLast? ≠ some .stay := by
  obtain ⟨name, last⟩ := enters_of_outlet (outlet?_eq_some.mp leads).2.2
  simp [last]

private theorem getLast?_tail {step : Step} {steps : List Step}
    (last : (step :: steps).getLast? ≠ some .stay) : steps.getLast? ≠ some .stay := by
  cases steps with
  | nil => simp
  | cons next steps => simpa using last

private theorem thinned_nil_iff {steps kept : List Step} (thinned : Thinned steps kept)
    (last : steps.getLast? ≠ some .stay) : steps = [] ↔ kept = [] := by
  induction thinned with
  | nil => exact Iff.rfl
  | keep step rest => simp
  | drop rest ih =>
    refine iff_of_false (by simp) fun empty => ?_
    obtain rfl := (ih (getLast?_tail last)).mpr empty
    simp at last

private theorem outlet_walk_thinned {aim : Aim} {links : Nat} {here : Location}
    {steps kept : List Step} (thinned : Thinned steps kept) (target : aim = .target)
    (last : steps.getLast? ≠ some .stay) :
    outlet (files.walk aim links here kept) = outlet (files.walk aim links here steps) := by
  subst target
  induction links, here, steps using walk_induction generalizing kept with
  | arrived links here =>
    cases thinned
    rfl
  | stay links here rest ih =>
    cases thinned with
    | keep step thinner =>
      rw [walk, walk]
      exact ih thinner (getLast?_tail last)
    | drop thinner =>
      rw [ih thinner (getLast?_tail last), walk]
  | slash links here rest ih =>
    cases thinned with
    | keep step thinner =>
      rw [walk, walk]
      exact ih thinner (getLast?_tail last)
  | up links here rest ih =>
    cases thinned with
    | keep step thinner =>
      rw [walk, walk]
      exact ih thinner (getLast?_tail last)
  | enter links here name rest ih follow =>
    cases thinned with
    | @keep _ kept step thinner =>
      have later := getLast?_tail last
      -- At the last name the two walks are the same; before it neither ends.
      by_cases more : rest = []
      · rw [more, (thinned_nil_iff thinner later).mp more]
      have moreToo : kept ≠ [] := fun empty => more ((thinned_nil_iff thinner later).mpr empty)
      have opens (steps : List Step) : ¬(Aim.target = .creation ∧ steps = [.slash]) := by simp
      rw [outlet, outlet, seen_enter, seen_enter, if_neg (opens kept), if_neg (opens rest)]
      by_cases long : Text.byteLength name > maximalName
      · rw [if_pos long, if_pos long]
      · rw [if_neg long, if_neg long]
        cases found : files.frame? (here ++ [name]) with
        | none =>
          dsimp only
          rw [if_neg more, if_neg moreToo]
        | some node =>
          cases node with
          | file file => rfl
          | directory => exact ih thinner later
          | link target =>
            dsimp only
            have moves (steps : List Step) : ¬(steps = [] ∧ Aim.target = .node) := by simp
            rw [if_neg (moves kept), if_neg (moves rest)]
            by_cases zero : links = 0
            · rw [if_pos zero, if_pos zero]
            · rw [if_neg zero, if_neg zero]
              refine follow (links - 1) (by omega) _ _ (thinner.append _) ?_
              rwa [List.getLast?_append_of_ne_nil _ more]

theorem accepted_absolute (home : files.Home) (accepted : path.Accepted)
    (short : Text.byteLength (files.absolute path).text < maximalPath) :
    (files.absolute path).Accepted := by
  refine ⟨?_, ?_, short⟩
  · rw [absolute_eq home accepted.nonempty]
    rcases Path.lead_slashes path with lead | lead <;> simp [Path.written, lead]
  · have parts : '\x00' ∉ Text.joinWith ['/'] (files.way path) := by
      refine Text.not_mem_joinWith (by decide) fun part member => ?_
      rcases List.mem_append.mp member with old | new
      · split at old
        · simp at old
        · exact (home.names part old).noNul
      · exact fun inside =>
          accepted.noNul (Text.mem_of_mem_splitOn (List.mem_filter.mp new).1 inside)
    rw [absolute_eq home accepted.nonempty]
    rcases Path.lead_slashes path with lead | lead <;> simp [Path.written, lead, parts]

/-- The absolute form of a path leads where the path leads. -/
theorem outlet?_absolute (home : files.Home) (leads : files.outlet? path = some location)
    (short : Text.byteLength (files.absolute path).text < maximalPath) :
    files.outlet? (files.absolute path) = some location := by
  obtain ⟨accepted, plain, walks⟩ := outlet?_eq_some.mp leads
  have slashes := Path.lead_slashes path
  have kept := kept_way home path
  have form := absolute_eq home accepted.nonempty
  have thin := outlet_walk_thinned path.thinned_steps rfl (getLast?_steps leads) |>.trans walks
  have down : outlet (files.walk .target maximalLinks [] ((files.way path).map Path.stepOf)) =
      some location := by
    rw [walk_way home]
    exact thin
  have filled : files.way path ≠ [] := by
    intro empty
    rw [empty, List.map_nil, walk] at down
    simp [outlet, seen, Except.toOption, Place.bare, Place.outlet?] at down
  refine outlet?_eq_some.mpr ⟨accepted_absolute home accepted short, ?_, ?_⟩
  · rw [form, Path.endsInSlash_written _ slashes kept, plain]
    simpa using filled
  · rw [form, Path.isAbsolute_written _ slashes, if_pos rfl, Path.steps_written _ slashes kept]
    exact down

/-- Absolute forms that are the same lead to the same location. -/
theorem outlet?_same (home : files.Home) {there : Location}
    (same : (files.absolute path).components = (files.absolute other).components)
    (leads : files.outlet? (files.absolute path) = some location)
    (leadsToo : files.outlet? (files.absolute other) = some there) : location = there := by
  have form {path : Path} {location : Location}
      (leads : files.outlet? (files.absolute path) = some location) :
      (files.absolute path).isAbsolute = true ∧
        outlet (files.walk .target maximalLinks []
          ((files.absolute path).solid.map Path.stepOf)) = some location := by
    obtain ⟨accepted, _, walks⟩ := outlet?_eq_some.mp leads
    have nonempty : path.text ≠ [] := by
      intro empty
      apply accepted.nonempty
      simp [absolute, Path.absolute?, empty]
    have slashes := Path.lead_slashes path
    have kept := kept_way home path
    rw [absolute_eq home nonempty, Path.isAbsolute_written _ slashes, if_pos rfl,
      Path.steps_written _ slashes kept] at walks
    rw [absolute_eq home nonempty, Path.isAbsolute_written _ slashes,
      Path.solid_written _ slashes kept]
    exact ⟨rfl, walks⟩
  obtain ⟨rooted, walks⟩ := form leads
  obtain ⟨rootedToo, walksToo⟩ := form leadsToo
  rw [Path.solid_eq_of_components_eq rooted rootedToo same, walksToo] at walks
  exact (Option.some.inj walks).symm

private theorem rooted_absolute (home : files.Home) (nonempty : path.text ≠ []) :
    (files.absolute path).isAbsolute = true ∧ (files.absolute path).solid = files.way path := by
  rw [absolute_eq home nonempty]
  exact ⟨Path.isAbsolute_written _ (Path.lead_slashes path),
    Path.solid_written _ (Path.lead_slashes path) (kept_way home path)⟩

theorem outlet?_of_absolute (home : files.Home) (accepted : path.Accepted)
    (plain : path.endsInSlash = false) (last : path.steps.getLast? ≠ some .stay)
    (leads : files.outlet? (files.absolute path) = some location) :
    files.outlet? path = some location := by
  have walks := (outlet?_eq_some.mp leads).2.2
  rw [(rooted_absolute home accepted.nonempty).1, if_pos rfl, absolute_eq home accepted.nonempty,
    Path.steps_written _ (Path.lead_slashes path) (kept_way home path)] at walks
  rw [walk_way home] at walks
  exact outlet?_eq_some.mpr ⟨accepted, plain,
    (outlet_walk_thinned path.thinned_steps rfl last).symm.trans walks⟩

theorem way_of_same (home : files.Home) (nonempty : path.text ≠ []) (nonemptyToo : other.text ≠ [])
    (same : (files.absolute path).components = (files.absolute other).components) :
    files.way path = files.way other := by
  obtain ⟨rooted, solid⟩ := rooted_absolute home nonempty
  obtain ⟨rootedToo, solidToo⟩ := rooted_absolute home nonemptyToo
  rw [← solid, ← solidToo]
  exact Path.solid_eq_of_components_eq rooted rootedToo same

/-- An absolute form without a slash at its end leads where another leads that is the same. -/
theorem outlet?_of_same (home : files.Home) (nonempty : path.text ≠ [])
    (plain : path.endsInSlash = false)
    (short : Text.byteLength (files.absolute path).text < maximalPath)
    (same : (files.absolute path).components = (files.absolute other).components)
    (leads : files.outlet? (files.absolute other) = some location) :
    files.outlet? (files.absolute path) = some location := by
  obtain ⟨accepted, _, walks⟩ := outlet?_eq_some.mp leads
  have nonemptyToo : other.text ≠ [] := by
    intro empty
    apply accepted.nonempty
    simp [absolute, Path.absolute?, empty]
  have ways := way_of_same home nonempty nonemptyToo same
  have parts : ∀ part ∈ files.way path, '\x00' ∉ part := by
    intro part member inside
    rw [ways, ← (rooted_absolute home nonemptyToo).2] at member
    exact accepted.noNul (Text.mem_of_mem_splitOn (List.mem_filter.mp member).1 inside)
  rw [(rooted_absolute home nonemptyToo).1, if_pos rfl, absolute_eq home nonemptyToo,
    Path.steps_written _ (Path.lead_slashes other) (kept_way home other), ← ways] at walks
  have filled : files.way path ≠ [] := by
    intro empty
    rw [empty, List.map_nil, walk] at walks
    simp [outlet, seen, Except.toOption, Place.bare, Place.outlet?] at walks
  have joined : '\x00' ∉ Text.joinWith ['/'] (files.way path) :=
    Text.not_mem_joinWith (by decide) parts
  refine outlet?_eq_some.mpr ⟨⟨?_, ?_, short⟩, ?_, ?_⟩
  · rw [absolute_eq home nonempty]
    rcases Path.lead_slashes path with lead | lead <;> simp [Path.written, lead]
  · rw [absolute_eq home nonempty]
    rcases Path.lead_slashes path with lead | lead <;> simp [Path.written, lead, plain, joined]
  · rw [absolute_eq home nonempty,
      Path.endsInSlash_written _ (Path.lead_slashes path) (kept_way home path), plain]
    simpa using filled
  · rw [(rooted_absolute home nonempty).1, if_pos rfl, absolute_eq home nonempty,
      Path.steps_written _ (Path.lead_slashes path) (kept_way home path)]
    exact walks

end FileSystem

end ShaderBuild
