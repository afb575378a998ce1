import ShaderBuild.Proofs.Build.UpToDate
import ShaderBuild.Proofs.Build.Independence
import ShaderBuild.Proofs.Build.Logging
import ShaderBuild.Proofs.Build.Retry
/-!
What a run leaves behind that ends with the artifacts rebuilt. The end of a stage is judged by its
status alone: all five artifacts are there if every tool that succeeds has written its output, and
need not be otherwise. The log file makes no difference.
-/
namespace ShaderBuild

namespace FileSystem

variable {first second : FileSystem} {path other : Path}

theorem isFile_of_write {now : Instant} {contents : Contents}
    (done : first.write path now contents = .ok second) : second.isFile path = true := by
  obtain ⟨location, leads, rfl⟩ := write_eq_ok.mp done
  rw [isFile_eq, file?_put (free_of_outlet? leads), if_pos leads]
  rfl

/-- No file is gone after another was written. -/
theorem Writes.isFile (writes : Writes path first second) (present : first.isFile other = true) :
    second.isFile other = true := by
  rw [isFile_eq] at present ⊢
  rcases writes with rfl | ⟨location, file, leads, rfl⟩
  · exact present
  · rw [file?_put (free_of_outlet? leads)]
    split
    · rfl
    · exact present

end FileSystem

/-- The artifacts that are there before the phase begins. -/
def Artifacts.before (artifacts : Artifacts) : Task.Phase → List Path
  | .run .compile => [artifacts.expanded]
  | .run .optimize => [artifacts.expanded, artifacts.compiled]
  | .run .reflect => [artifacts.expanded, artifacts.compiled, artifacts.optimized]
  | .run .crossCompile =>
    [artifacts.expanded, artifacts.compiled, artifacts.optimized, artifacts.reflection]
  | .finished (.ok .rebuilt) => artifacts.all
  | _ => []

namespace Task

variable {task : Task} {tools : Tools} {state : BuildState} {phase : Phase}

/-- A tool that ends with status zero has written its output, and none takes an artifact away. -/
structure Delivers (task : Task) (tools : Tools) : Prop where
  output : ∀ launches stage world,
    (tools.respond launches (task.launchOf stage) world).1.status = .exited 0 →
      (tools.respond launches (task.launchOf stage) world).2.files.isFile
        (stage.output task.artifacts) = true
  kept : ∀ launches stage world, ∀ artifact ∈ task.artifacts.all,
    world.files.isFile artifact = true →
      (tools.respond launches (task.launchOf stage) world).2.files.isFile artifact = true

/-- All artifacts that come before the phase are there. -/
def Stocked (task : Task) (phase : Phase) (state : BuildState) : Prop :=
  ∀ artifact ∈ task.artifacts.before phase, state.world.files.isFile artifact = true

private theorem stocked_of_nil (none : task.artifacts.before phase = []) :
    task.Stocked phase state := by
  simp [Stocked, none]

private theorem before_subset (artifacts : Artifacts) (phase : Phase) :
    ∀ artifact ∈ artifacts.before phase, artifact ∈ artifacts.all := by
  unfold Artifacts.before
  split <;> simp [Artifacts.all]

theorem before_afterStage (artifacts : Artifacts) (stage : ToolStage) :
    artifacts.before (Phase.afterStage stage) =
      artifacts.before (.run stage) ++ [stage.output artifacts] := by
  cases stage <;> rfl

private theorem stocked_next {α : Type} {onward : α → Phase}
    (none : ∀ value, task.artifacts.before (onward value) = [])
    (result : Except BuildFailure α × BuildState) :
    task.Stocked (Phase.next onward result).1 (Phase.next onward result).2 := by
  obtain ⟨outcome, state⟩ := result
  cases outcome with
  | ok value => exact stocked_of_nil (none value)
  | error problem => exact stocked_of_nil rfl

private theorem stocked_write (text : Text) (state : BuildState) :
    task.Stocked (task.stepWrite text state).1 (task.stepWrite text state).2 := by
  unfold stepWrite BuildState.changing World.write World.change
  dsimp only
  cases done : state.world.files.write task.artifacts.expanded state.world.now (.text text) with
  | error problem => exact stocked_of_nil rfl
  | ok files =>
    intro artifact member
    obtain rfl := List.mem_singleton.mp member
    exact FileSystem.isFile_of_write done

private theorem stocked_run (delivers : task.Delivers tools) (stage : ToolStage)
    (stocked : task.Stocked (.run stage) state) :
    task.Stocked (task.stepRun tools stage state).1 (task.stepRun tools stage state).2 := by
  unfold stepRun BuildState.launch
  dsimp only
  split
  · exact stocked_of_nil rfl
  · split
    · rename_i done
      intro artifact member
      rw [Phase.next, before_afterStage, List.mem_append, List.mem_singleton] at member
      rcases member with earlier | rfl
      · refine delivers.kept _ stage _ artifact (before_subset _ (.run stage) artifact earlier) ?_
        exact (World.isFile_record _ _ _ _).trans (stocked artifact earlier)
      · exact delivers.output _ stage _ done
    · exact stocked_of_nil rfl

/-- Each step leaves the artifacts that come before the next phase. -/
theorem stocked_step (delivers : task.Delivers tools) (stocked : task.Stocked phase state) :
    task.Stocked (task.step tools phase state).1 (task.step tools phase state).2 := by
  cases phase with
  | lookup =>
    change task.Stocked (task.stepLookup state).1 (task.stepLookup state).2
    unfold stepLookup
    split <;> exact stocked_of_nil rfl
  | discover => exact stocked_next (fun _ => rfl) _
  | store set => exact stocked_of_nil rfl
  | judge set =>
    change task.Stocked (task.stepJudge set state).1 (task.stepJudge set state).2
    unfold stepJudge
    split
    · split <;> exact stocked_of_nil rfl
    · exact stocked_of_nil rfl
  | refresh =>
    change task.Stocked (task.stepRefresh state).1 (task.stepRefresh state).2
    unfold stepRefresh
    split <;> exact stocked_of_nil rfl
  | prepare =>
    change task.Stocked (task.stepPrepare state).1 (task.stepPrepare state).2
    unfold stepPrepare
    split
    · exact stocked_of_nil rfl
    · exact stocked_next (fun _ => rfl) _
  | rediscover => exact stocked_next (fun _ => rfl) _
  | restore set => exact stocked_of_nil rfl
  | expand => exact stocked_next (fun _ => rfl) _
  | write text => exact stocked_write text state
  | run stage => exact stocked_run delivers stage stocked
  | finished result => exact stocked

theorem stocked_complete (delivers : task.Delivers tools) (stocked : task.Stocked phase state) :
    task.Stocked (.finished (task.complete tools phase state).1)
      (task.complete tools phase state).2 := by
  induction phase, state using step_induction task tools with
  | finished result state =>
    rw [complete_finished]
    exact stocked
  | running phase state running ih =>
    rw [complete_running running]
    exact ih (stocked_step delivers stocked)

/-- When a run ends with the artifacts rebuilt, all five are files, if every tool that succeeds has
written its output and none takes an artifact away: whatever the tools do besides, and whatever was
there before. -/
theorem isFile_of_rebuilt (delivers : task.Delivers tools)
    (rebuilt : (task.process tools state).1 = .ok .rebuilt) :
    ∀ artifact ∈ task.artifacts.all,
      (task.process tools state).2.world.files.isFile artifact = true := by
  have ends : task.Stocked (.finished (task.process tools state).1) (task.process tools state).2 :=
    stocked_complete delivers (stocked_of_nil rfl)
  rw [rebuilt] at ends
  exact ends

end Task

/-- Programs that write an output without text where their arguments ask for one, and fail if they
cannot. -/
def carefulTools : Tools where
  respond _ launch world :=
    match outputAfter launch.arguments with
    | some output =>
      match world.write ⟨output⟩ (.text []) with
      | (.ok _, after) => (⟨.exited 0, [], []⟩, after)
      | (.error _, after) => (⟨.exited 1, [], []⟩, after)
    | none => (⟨.exited 0, [], []⟩, world)

namespace Task

variable {task : Task}

theorem respond_careful {world : World} {files : FileSystem} {stage : ToolStage}
    (launches : List Launch)
    (done : world.files.write (stage.output task.artifacts) world.now (.text []) = .ok files) :
    carefulTools.respond launches (task.launchOf stage) world =
      (⟨.exited 0, [], []⟩, world.after files) := by
  simp only [carefulTools, outputAfter_launchOf, World.write, World.change, done]

theorem respond_careful_error {world : World} {problem : FileError} {stage : ToolStage}
    (launches : List Launch)
    (failed : world.files.write (stage.output task.artifacts) world.now (.text []) =
      .error problem) :
    carefulTools.respond launches (task.launchOf stage) world = (⟨.exited 1, [], []⟩, world) := by
  simp only [carefulTools, outputAfter_launchOf, World.write, World.change, failed]

theorem delivers_careful : task.Delivers carefulTools := by
  constructor
  · intro launches stage world succeeded
    cases done : world.files.write (stage.output task.artifacts) world.now (.text []) with
    | ok files =>
      rw [respond_careful launches done]
      exact FileSystem.isFile_of_write done
    | error problem => simp [respond_careful_error launches done] at succeeded
  · intro launches stage world artifact _ present
    cases done : world.files.write (stage.output task.artifacts) world.now (.text []) with
    | ok files =>
      rw [respond_careful launches done]
      exact (FileSystem.writes_of_write done).isFile present
    | error problem => rwa [respond_careful_error launches done]

variable (files : FileSystem) in
theorem moves_of_careful {stage : ToolStage} {state after : BuildState}
    {result : Except BuildFailure Outcome}
    (started : (task.launchOf stage).check state.world.files = .ok ())
    (written : state.world.files.write (stage.output task.artifacts) state.world.now (.text []) =
      .ok files)
    (rest : Moves task carefulTools (Phase.afterStage stage)
      { state with
        world := state.world.after files
        launches := state.launches ++ [task.launchOf stage] } result after) :
    Moves task carefulTools (.run stage) state result after :=
  .step (.succeeded started (respond_careful _ written) rfl) rest

theorem moves_site_careful {source : Path} {profile text : Text} (cache : DependencyStore) :
    Moves (siteTask source profile) carefulTools (.run .compile)
      { siteState with
        world := siteState.world.after ((siteFiles []).made "o" text 10)
        cache := cache } (.ok .rebuilt)
      { siteState with
        world := ⟨siteBuilt text, siteState.world.clock, 5⟩
        cache := cache
        launches := ToolStage.all.map (siteTask source profile).launchOf } := by
  refine moves_of_careful (((siteFiles []).made "o" text 10).made "o.spv" [] 11)
    (by cbv) (by cbv) ?_
  refine moves_of_careful ((((siteFiles []).made "o" text 10).made "o.spv" [] 11).made
    "o.opt.spv" [] 12) (by cbv) (by cbv) ?_
  refine moves_of_careful (((((siteFiles []).made "o" text 10).made "o.spv" [] 11).made
    "o.opt.spv" [] 12).made "o.json" [] 13) (by cbv) (by cbv) ?_
  refine moves_of_careful (siteBuilt text) (by cbv) (by cbv) ?_
  exact .done _ _

/-- A first run among a template and its headers, with tools that write their outputs. -/
theorem isFile_of_rebuilt_careful :
    ((siteTask (Path.of "aa.slv") []).process carefulTools siteState).1 = .ok .rebuilt ∧
      ∀ artifact ∈ (siteTask (Path.of "aa.slv") []).artifacts.all,
        ((siteTask (Path.of "aa.slv") []).process carefulTools siteState).2.world.files.isFile
          artifact = true := by
  have rebuilt := (process_site_of known_site read_site (@moves_site_careful _ [] _ _)).1
  exact ⟨rebuilt, isFile_of_rebuilt delivers_careful rebuilt⟩

private theorem moves_site_idle {source : Path} {profile text : Text} (cache : DependencyStore) :
    Moves (siteTask source profile) idleTools (.run .compile)
      { siteState with
        world := siteState.world.after ((siteFiles []).made "o" text 10)
        cache := cache } (.ok .rebuilt)
      { siteState with
        world := siteState.world.after ((siteFiles []).made "o" text 10)
        cache := cache
        launches := ToolStage.all.map (siteTask source profile).launchOf } := by
  have started (stage : ToolStage) : ((siteTask source profile).launchOf stage).check
      ((siteFiles []).made "o" text 10) = .ok () := by
    cases stage <;> cbv
  refine .step (.succeeded (started .compile) rfl rfl) ?_
  refine .step (.succeeded (started .optimize) rfl rfl) ?_
  refine .step (.succeeded (started .reflect) rfl rfl) ?_
  refine .step (.succeeded (started .crossCompile) rfl rfl) ?_
  exact .done _ _

/-- Tools that end with status zero and write nothing: the run ends with the artifacts rebuilt,
though only the expanded text was written. -/
theorem missing_of_rebuilt_idle :
    ((siteTask (Path.of "aa.slv") []).process idleTools siteState).1 = .ok .rebuilt ∧
      ∃ artifact ∈ (siteTask (Path.of "aa.slv") []).artifacts.all,
        ((siteTask (Path.of "aa.slv") []).process idleTools siteState).2.world.files.isFile
          artifact = false := by
  obtain ⟨rebuilt, left⟩ := process_site_of known_site read_site (@moves_site_idle _ [] _ _)
  refine ⟨rebuilt, (siteTask (Path.of "aa.slv") []).artifacts.crossCompiled,
    by simp [Artifacts.all], ?_⟩
  have files : ((siteTask (Path.of "aa.slv") []).process idleTools siteState).2.world.files =
      (siteFiles []).made "o" (siteText []) 10 := congrArg (·.world.files) left
  rw [files]
  generalize siteText [] = text
  cbv

end Task

end ShaderBuild
