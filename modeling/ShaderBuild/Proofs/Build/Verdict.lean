import ShaderBuild.Proofs.Build.Lookups
/-!
The judgement of a command. It is settled by what is known and stands on disk when the work on the
command begins, and it alone decides whether the command is up to date; a dry run and a real one judge
alike.
-/
namespace ShaderBuild

namespace Task

variable {task : Task} {tools : Tools} {phase next : Phase} {begun first second state after : BuildState}

/-- Whether the artifacts are stale by the dependencies that are known, or else by those that are found;
there is no judgement when the search fails. -/
def verdict? (task : Task) (state : BuildState) : Option Bool :=
  match state.cache.find? task.key with
  | some set => some (task.isStale state.world.files set)
  | none => (task.discovered state.world.files).toOption.map (task.isStale state.world.files)

/-- What the work on a command looks up, reads or compares times of until it is judged. -/
inductive Considers (task : Task) (state : BuildState) : Path → Prop where
  | searched {path : Path} (unknown : state.cache.find? task.key = none)
      (searches : task.Searches state.world.files path) : Considers task state path
  | known {set : PathSet} {path : Path} (unforced : task.settings.force = false)
      (known : state.cache.find? task.key = some set) (member : path ∈ set.paths) :
      Considers task state path
  | found {set : PathSet} {path : Path} (unforced : task.settings.force = false)
      (unknown : state.cache.find? task.key = none)
      (found : task.discovered state.world.files = .ok set) (member : path ∈ set.paths) :
      Considers task state path
  | artifact {path : Path} (unforced : task.settings.force = false)
      (member : path ∈ task.artifacts.all) : Considers task state path

/-- The search comes to the same, but for the reason of a failure, where the same files are found at all
that it looks at. -/
theorem toOption_discovered_congr {first second : FileSystem}
    (home : second.workingDirectory = first.workingDirectory)
    (same : ∀ path, task.Searches first path → second.file? path = first.file? path) :
    (task.discovered second).toOption = (task.discovered first).toOption := by
  have read (text : Text) : second.readText task.source = .ok text ↔
      first.readText task.source = .ok text := by
    rw [FileSystem.readText_eq_ok, FileSystem.readText_eq_ok, same _ .source]
  rw [discovered, discovered, value_discover, value_discover]
  cases text : first.readText task.source with
  | error problem =>
    cases textToo : second.readText task.source with
    | error other => rfl
    | ok own => cases text.symm.trans ((read own).mp textToo)
  | ok own =>
    rw [(read own).mpr text]
    have follows := Include.toOption_outcome_of_looks home fun path looks =>
      same path (.included text looks)
    change (Except.bind (Include.outcome second _ _ _) _).toOption =
      (Except.bind (Include.outcome first _ _ _) _).toOption
    simp only [PathSet.withSource_congr home.symm]
    revert follows
    generalize Include.outcome second _ _ _ = one
    generalize Include.outcome first _ _ _ = two
    intro follows
    cases one <;> cases two
    · rfl
    · cases follows
    · cases follows
    · obtain rfl := Option.some.inj follows
      rfl

private theorem isStale_of_file? {first second : FileSystem} {set : PathSet}
    (same : task.settings.force = false → ∀ path ∈ set.paths ++ task.artifacts.all,
      second.file? path = first.file? path) :
    task.isStale second set = task.isStale first set := by
  refine isStale_of_times fun unforced path member => ?_
  rw [FileSystem.modified?_eq, FileSystem.modified?_eq, same unforced path member]

/-- The judgement is the same where the same dependencies are known and the same files are found at all
that is considered. -/
theorem verdict?_congr
    (home : second.world.files.workingDirectory = first.world.files.workingDirectory)
    (entry : second.cache.find? task.key = first.cache.find? task.key)
    (same : ∀ path, task.Considers first path →
      second.world.files.file? path = first.world.files.file? path) :
    task.verdict? second = task.verdict? first := by
  unfold verdict?
  rw [entry]
  cases known : first.cache.find? task.key with
  | some set =>
    refine congrArg some (isStale_of_file? fun unforced path member => same path ?_)
    rcases List.mem_append.mp member with listed | own
    · exact .known unforced known listed
    · exact .artifact unforced own
  | none =>
    dsimp only
    rw [toOption_discovered_congr home fun path searches => same path (.searched known searches)]
    cases found : task.discovered first.world.files with
    | error problem => rfl
    | ok set =>
      refine congrArg some (isStale_of_file? fun unforced path member => same path ?_)
      rcases List.mem_append.mp member with listed | own
      · exact .found unforced known found listed
      · exact .artifact unforced own

/-- What is settled about the judgement when the work comes to a phase. -/
def Judging (task : Task) (begun state : BuildState) : Phase → Prop
  | .lookup => state.world.files = begun.world.files ∧ state.cache = begun.cache
  | .discover => state.world.files = begun.world.files ∧ begun.cache.find? task.key = none
  | .store set => state.world.files = begun.world.files ∧
    task.verdict? begun = some (task.isStale begun.world.files set)
  | .judge set => state.world.files = begun.world.files ∧
    task.verdict? begun = some (task.isStale begun.world.files set)
  | .refresh | .finished (.ok .upToDate) => task.verdict? begun = some false
  | .finished (.ok .wouldRebuild) =>
    task.verdict? begun = some true ∧ task.settings.dryRun = true
  | .finished (.error _) => task.verdict? begun ≠ some false ∧
    (task.settings.dryRun = true → task.verdict? begun = none)
  | _ => task.verdict? begun = some true ∧ task.settings.dryRun = false

theorem judging_of_move (move : Move task tools phase state next after)
    (judging : task.Judging begun state phase) : task.Judging begun after next := by
  cases move with
  | hit known =>
    obtain ⟨files, cache⟩ := judging
    refine ⟨files, ?_⟩
    rw [cache] at known
    simp [verdict?, known]
  | miss unknown =>
    obtain ⟨files, cache⟩ := judging
    exact ⟨files, cache ▸ unknown⟩
  | discovered found =>
    obtain ⟨files, unknown⟩ := judging
    refine ⟨files, ?_⟩
    rw [files] at found
    simp [verdict?, unknown, found, Except.toOption]
  | undiscovered failed =>
    obtain ⟨files, unknown⟩ := judging
    rw [files] at failed
    simp [Judging, verdict?, unknown, failed, Except.toOption]
  | store set => exact judging
  | fresh current =>
    obtain ⟨files, judged⟩ := judging
    rwa [files.symm, current] at judged
  | report stale dry =>
    obtain ⟨files, judged⟩ := judging
    refine ⟨?_, dry⟩
    rwa [files.symm, stale] at judged
  | rebuild stale wet =>
    obtain ⟨files, judged⟩ := judging
    refine ⟨?_, wet⟩
    rwa [files.symm, stale] at judged
  | refreshed => exact judging
  | unrefreshed failed => exact absurd failed Freshness.refresh_ne_error
  | @succeeded _ stage => cases stage <;> exact judging
  | unprepared | unrediscovered | unexpanded | unwritten | unstarted | exited =>
    obtain ⟨judged, wet⟩ := judging
    simp [Judging, judged, wet]
  | _ => exact judging

theorem judging_of_comes (comes : Comes task tools begun phase state)
    (noFile : begun.fileLevel = none) :
    state.fileLevel = none ∧ task.Judging begun state phase :=
  comes.along noFile (motive := fun phase state => task.Judging begun state phase) ⟨rfl, rfl⟩
    fun _ _ _ _ => judging_of_move

section

variable (tools) (noFile : begun.fileLevel = none)
include noFile

private theorem judging_of_process {result : Except BuildFailure Outcome}
    (ended : (task.process tools begun).1 = result) :
    task.Judging begun (task.process tools begun).2 (.finished result) :=
  ended ▸ (judging_of_comes (comes_process task tools begun) noFile).2

theorem process_eq_upToDate :
    (task.process tools begun).1 = .ok .upToDate ↔ task.verdict? begun = some false := by
  cases ended : (task.process tools begun).1 with
  | ok outcome =>
    have judging := judging_of_process tools noFile ended
    cases outcome with
    | upToDate => exact iff_of_true rfl judging
    | rebuilt => simp [judging.1]
    | wouldRebuild => simp [judging.1]
  | error problem => exact iff_of_false nofun (judging_of_process tools noFile ended).1

theorem process_eq_wouldRebuild : (task.process tools begun).1 = .ok .wouldRebuild ↔
    task.verdict? begun = some true ∧ task.settings.dryRun = true := by
  cases ended : (task.process tools begun).1 with
  | ok outcome =>
    have judging := judging_of_process tools noFile ended
    cases outcome with
    | wouldRebuild => exact iff_of_true rfl judging
    | upToDate => simp [show task.verdict? begun = some false from judging]
    | rebuilt => simp [judging.2]
  | error problem =>
    refine iff_of_false nofun fun ⟨stale, dry⟩ => ?_
    cases stale.symm.trans ((judging_of_process tools noFile ended).2 dry)

theorem process_of_stale (wet : task.settings.dryRun = false)
    (stale : task.verdict? begun = some true) :
    (task.process tools begun).1 = .ok .rebuilt ∨
      ∃ problem, (task.process tools begun).1 = .error problem := by
  cases ended : (task.process tools begun).1 with
  | error problem => exact .inr ⟨problem, rfl⟩
  | ok outcome =>
    have judging := judging_of_process tools noFile ended
    cases outcome with
    | rebuilt => exact .inl rfl
    | upToDate => cases stale.symm.trans judging
    | wouldRebuild => cases wet.symm.trans judging.2

end

end Task

end ShaderBuild
