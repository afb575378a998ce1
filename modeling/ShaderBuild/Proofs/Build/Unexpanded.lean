import Mathlib
import ShaderBuild.Proofs.Build.Course
import ShaderBuild.Proofs.Build.Footprint
import ShaderBuild.Proofs.Build.Interleaving
import ShaderBuild.Proofs.Build.Lookups
/-!
Commands whose dependencies cannot be found or whose template cannot be expanded. Nothing is written
before the expansion has succeeded: on disk at most directories are made for the artifacts, and of the
known dependencies at most those of the command are other ones, found in this run.
-/
namespace ShaderBuild

open FileSystem (Noted)
open BuildState (Annotated)

namespace Task

variable {task : Task} {tools : Tools} {phase : Phase} {begun state : BuildState}
  {before middle after : Option Node} {laid now : FileSystem} {level : Option Log.Level}
  {location : Location}

/-- What may become of a location before anything is written: a file that keeps the log takes entries,
and where nothing was a directory is made, to which a path above the artifacts leads. -/
inductive Lays (task : Task) (level : Option Log.Level) (laid : FileSystem) (location : Location) :
    Option Node → Option Node → Prop where
  | noted {before after : Option Node} (noted : Noted level before after) :
      Lays task level laid location before after
  | made {directory : Path} (wanted : directory ∈ task.directories)
      (leads : laid.locate .target directory = .ok (.occupied location .directory)) :
      Lays task level laid location none (some .directory)

theorem Lays.grown (lays : task.Lays level laid location before after) (grown : laid.Grown now) :
    task.Lays level now location before after := by
  cases lays with
  | noted noted => exact .noted noted
  | made wanted leads => exact .made wanted (grown.locate_directory leads)

theorem Lays.trans_noted (lays : task.Lays level laid location before middle)
    (noted : Noted level middle after) : task.Lays level laid location before after := by
  cases lays with
  | noted first => exact .noted (first.trans noted)
  | made wanted leads =>
    cases noted
    exact .made wanted leads

/-- The directories for the artifacts are made once more, or for the first time. -/
theorem Lays.prepared (lays : task.Lays level laid location before (laid.node? location)) :
    task.Lays level (task.prepared laid) location before ((task.prepared laid).node? location) := by
  have onward := lays.grown (grown_prepared task laid)
  unfold Task.prepared at onward ⊢
  split
  · exact lays
  · rename_i parent top
    rw [top] at onward
    have directories : task.directories = parent :: parent.parents := by
      rw [Task.directories, top]
    rcases FileSystem.node?_makeChain laid (parent :: parent.parents) location with
      same | ⟨absent, there, other, member, leads⟩
    · exact same ▸ onward
    · rw [FileSystem.makeDirectories, there]
      rw [absent] at lays
      cases lays with
      | noted noted =>
        cases noted
        exact .made (directories ▸ member) leads

/-- At some point of the work a search for the dependencies came to this set. -/
def Discovers (task : Task) (tools : Tools) (begun : BuildState) (set : PathSet) : Prop :=
  ∃ phase state, Comes task tools begun phase state ∧ (phase = .discover ∨ phase = .rediscover) ∧
    (state.expanding (discover state.world.files task.searchPath task.source task.headers)).1 =
      .ok set

/-- Without a log file that is a search among the files of the beginning, or among these with the
directory of the artifacts made. -/
theorem Discovers.discovered {set : PathSet} (discovers : task.Discovers tools begun set)
    (noFile : begun.fileLevel = none) : task.discovered begun.world.files = .ok set ∨
      task.discovered (task.prepared begun.world.files) = .ok set := by
  obtain ⟨phase, state, comes, searching, found⟩ := discovers
  obtain ⟨quiet, untouched⟩ := untouched_of_comes comes noFile
  have searched : task.discovered state.world.files = .ok set := by
    rw [BuildState.expanding_eq_run _ _ quiet] at found
    change (task.discovered state.world.files).mapError BuildFailure.expansion = .ok set at found
    cases answer : task.discovered state.world.files with
    | ok other => rw [answer, Except.mapError, Except.ok.injEq] at found; rw [found]
    | error problem => simp [answer, Except.mapError] at found
  rcases searching with rfl | rfl
  · exact .inl ((show state.world.files = begun.world.files from untouched) ▸ searched)
  · exact .inr ((show state.world.files = task.prepared begun.world.files from untouched) ▸ searched)

/-- What is left as it was before anything is written. -/
structure Unspoilt (task : Task) (tools : Tools) (begun state : BuildState) : Prop where
  launches : state.launches = begun.launches
  fileLevel : state.fileLevel = begun.fileLevel
  node : ∀ location, task.Lays begun.fileLevel state.world.files location
    (begun.world.files.node? location) (state.world.files.node? location)
  others : ∀ key : DependencyKey, key.same task.key = false →
    state.cache.find? key = begun.cache.find? key
  /-- The dependencies of the command are those that were known, or were found in this run. -/
  own : state.cache.find? task.key = begun.cache.find? task.key ∨
    ∃ set, task.Discovers tools begun set ∧ state.cache.find? task.key = some set

namespace Unspoilt

theorem annotated {later : BuildState} (unspoilt : task.Unspoilt tools begun state)
    (annotated : Annotated state later) (cache : later.cache = state.cache) :
    task.Unspoilt tools begun later where
  launches := annotated.launches.trans unspoilt.launches
  fileLevel := annotated.fileLevel.trans unspoilt.fileLevel
  node location := ((unspoilt.node location).grown annotated.grown).trans_noted
    (unspoilt.fileLevel ▸ annotated.node location)
  others := cache ▸ unspoilt.others
  own := cache ▸ unspoilt.own

/-- What was found is stored. -/
theorem stored {set : PathSet} (unspoilt : task.Unspoilt tools begun state)
    (found : task.Discovers tools begun set) : task.Unspoilt tools begun
      { state with cache := state.cache.insert task.key set } := by
  refine ⟨unspoilt.launches, unspoilt.fileLevel, unspoilt.node, fun key other => ?_,
    .inr ⟨set, found, ?_⟩⟩
  · have differ : task.key.identity ≠ key.identity := fun same => by
      rw [DependencyKey.same_iff.mpr same.symm] at other
      cases other
    rw [DependencyStore.find?_insert, if_neg differ]
    exact unspoilt.others key other
  · exact DependencyStore.find?_insert_self

/-- The directory of the artifacts is made. -/
theorem prepared (unspoilt : task.Unspoilt tools begun state) : task.Unspoilt tools begun
    { state with world := { state.world with files := task.prepared state.world.files } } :=
  ⟨unspoilt.launches, unspoilt.fileLevel, fun location => (unspoilt.node location).prepared,
    unspoilt.others, unspoilt.own⟩

end Unspoilt

/-- The phases before anything is written, and the end that the work comes to from them when an
expansion fails. -/
def Phase.Unwritten : Phase → Prop
  | .refresh | .write _ | .run _ => False
  | .finished result => ∃ problem, result = .error (.expansion problem)
  | _ => True

/-- Once something is written, or about to be, no expansion fails any more. -/
theorem unwritten_of_step (running : phase.result? = none)
    (unwritten : (task.step tools phase state).1.Unwritten) : phase.Unwritten := by
  cases phase with
  | refresh =>
    rw [(task.step_refresh tools state).1] at unwritten
    obtain ⟨_, same⟩ := unwritten
    cases same
  | write text =>
    change (task.stepWrite text state).1.Unwritten at unwritten
    unfold stepWrite BuildState.changing at unwritten
    dsimp only at unwritten
    cases done : (state.world.write task.artifacts.expanded (.text text)).1 with
    | ok =>
      rw [done] at unwritten
      exact unwritten
    | error problem =>
      rw [done] at unwritten
      obtain ⟨_, same⟩ := unwritten
      cases same
  | run stage =>
    have attempt := task.attempt_step tools stage state
    generalize task.reply? tools stage state = reply at attempt
    generalize task.step tools (.run stage) state = next at attempt unwritten
    cases attempt with
    | unstarted =>
      obtain ⟨_, same⟩ := unwritten
      cases same
    | exited =>
      obtain ⟨_, same⟩ := unwritten
      cases same
    | succeeded =>
      cases stage with
      | crossCompile =>
        obtain ⟨_, same⟩ := unwritten
        cases same
      | _ => exact unwritten
  | finished result => cases running
  | _ => trivial

/-- The dependencies that are about to be stored were found. -/
def Phase.Holds (task : Task) (tools : Tools) (begun : BuildState) : Phase → Prop
  | .store set | .restore set => task.Discovers tools begun set
  | _ => True

private theorem holds_next {α : Type} {onward : α → Phase}
    (result : Except BuildFailure α × BuildState)
    (goes : ∀ value, result.1 = .ok value → (onward value).Holds task tools begun) :
    (Phase.next onward result).1.Holds task tools begun := by
  obtain ⟨outcome, state⟩ := result
  cases outcome with
  | ok value => exact goes value rfl
  | error problem => trivial

theorem holds_step (comes : Comes task tools begun phase state) :
    (task.step tools phase state).1.Holds task tools begun := by
  cases phase with
  | lookup =>
    change (task.stepLookup state).1.Holds task tools begun
    unfold stepLookup
    split <;> trivial
  | discover => exact holds_next _ fun set found => ⟨_, state, comes, .inl rfl, found⟩
  | rediscover => exact holds_next _ fun set found => ⟨_, state, comes, .inr rfl, found⟩
  | judge set =>
    change (task.stepJudge set state).1.Holds task tools begun
    unfold stepJudge
    split
    · split <;> trivial
    · trivial
  | refresh =>
    rw [(task.step_refresh tools state).1]
    trivial
  | prepare =>
    change (task.stepPrepare state).1.Holds task tools begun
    unfold stepPrepare
    split
    · trivial
    · exact holds_next _ fun _ _ => trivial
  | expand => exact holds_next _ fun _ _ => trivial
  | write text => exact holds_next _ fun _ _ => trivial
  | run stage => exact holds_next _ fun _ _ => by cases stage <;> trivial
  | _ => trivial

theorem cache_step (reads : phase.Reads) (other : ∀ set, phase ≠ .store set ∧ phase ≠ .restore set)
    (state : BuildState) : (task.step tools phase state).2.cache = state.cache := by
  cases phase with
  | lookup =>
    change (task.stepLookup state).2.cache = _
    unfold stepLookup
    split <;> rfl
  | discover | rediscover =>
    rw [step, stepDiscover, snd_next]
    exact BuildState.cache_expanding _ _
  | expand =>
    rw [step, stepExpand, snd_next]
    exact BuildState.cache_expanding _ _
  | judge set =>
    change (task.stepJudge set state).2.cache = _
    unfold stepJudge
    split
    · split <;> rfl
    · rfl
  | store set => exact absurd rfl (other set).1
  | restore set => exact absurd rfl (other set).2
  | finished result => rfl
  | _ => exact reads.elim

theorem unspoilt_step (unwritten : phase.Unwritten) (holds : phase.Holds task tools begun)
    (unspoilt : task.Unspoilt tools begun state) :
    task.Unspoilt tools begun (task.step tools phase state).2 := by
  cases phase with
  | store set => exact unspoilt.stored holds
  | restore set => exact unspoilt.stored holds
  | prepare =>
    rw [step_prepare]
    exact unspoilt.prepared
  | refresh => exact unwritten.elim
  | write text => exact unwritten.elim
  | run stage => exact unwritten.elim
  | _ => exact unspoilt.annotated (annotated_step (by trivial)) (cache_step (by trivial) (by simp) state)

theorem unspoilt_of_comes (comes : Comes task tools begun phase state) :
    phase.Holds task tools begun ∧ (phase.Unwritten → task.Unspoilt tools begun state) := by
  induction comes with
  | start => exact ⟨trivial, fun _ => ⟨rfl, rfl, fun _ => .noted (.same _), fun _ _ => rfl, .inl rfl⟩⟩
  | step earlier running ih =>
    refine ⟨holds_step earlier, fun unwritten => ?_⟩
    have before := unwritten_of_step running unwritten
    exact unspoilt_step before ih.1 (ih.2 before)

variable {problem : ExpansionError}

/-- A command whose dependencies cannot be found or whose template cannot be expanded starts no stage
and leaves all files as they are, but that directories may be made for its artifacts and that the log,
if it is kept in a file, is written; the known dependencies of other commands are those of before, and its own
are too or were found in this run. -/
theorem unspoilt_of_unexpanded
    (failed : (task.process tools begun).1 = .error (.expansion problem)) :
    task.invocations tools .lookup begun = [] ∧
      task.Unspoilt tools begun (task.process tools begun).2 ∧
      (begun.fileLevel = none →
        (task.process tools begun).2.cache.find? task.key = begun.cache.find? task.key ∨
        ∃ files ∈ [begun.world.files, task.prepared begun.world.files], ∃ set,
          task.discovered files = .ok set ∧
          (task.process tools begun).2.cache.find? task.key = some set) := by
  have unspoilt : task.Unspoilt tools begun (task.process tools begun).2 :=
    (unspoilt_of_comes (comes_process task tools begun)).2 ⟨problem, failed⟩
  refine ⟨?_, unspoilt, fun noFile => unspoilt.own.imp_right ?_⟩
  · have launches := (task.launches_complete tools .lookup begun).symm.trans unspoilt.launches
    exact List.map_eq_nil_iff.mp (List.append_right_eq_self.mp launches)
  · rintro ⟨set, discovers, known⟩
    rcases discovers.discovered noFile with found | found
    · exact ⟨_, List.mem_cons_self, set, found, known⟩
    · exact ⟨_, List.mem_cons_of_mem _ (List.mem_singleton_self _), set, found, known⟩

/-- A template in which a function ends that was not begun. -/
def strayText : Text :=
  "<@endfunc@>".toList

/-- The template is all that there is. -/
def strayFiles : FileSystem where
  entries := [(["a.slv".toList], .file ⟨.text strayText, 5, false, false⟩)]
  workingLocation := []
  workingDirectory := Path.of "/"

def strayState : BuildState :=
  ⟨⟨strayFiles, fun tick => tick + 10, 0⟩, .empty, [], [], none⟩

/-- The command `410;mono;a.slv;out/a`. -/
def strayTask : Task where
  settings := RunSettings.ofPlaces (Path.of "/list") (Path.of "/tools") (Path.of "/build")
    (Path.of "/")
  command := ⟨"410".toList, .mono, Path.of "a.slv", Path.of "out/a", []⟩

private theorem discovered_stray {files : FileSystem}
    (read : files.readText strayTask.source = .ok strayText) : strayTask.discovered files =
      .ok (PathSet.empty.withSource files strayTask.source strayTask.headers) := by
  have none : Errand.ofText strayTask.source strayText = [] := by cbv
  exact discover_eq_ok.mpr ⟨strayText, .empty, read, by rw [none, Include.outcome_nil], rfl⟩

private theorem unexpanded_stray {files : FileSystem}
    (read : files.readText strayTask.source = .ok strayText)
    (home : files.workingDirectory = Path.of "/") : ∃ problem,
      ((strayTask.expand files).run files).value = .error problem := by
  have known : ShaderStage.ofPath? strayTask.source = some .vertex := by cbv
  have absolute : files.absolute strayTask.source = Path.of "/a.slv" := by
    rw [FileSystem.absolute, home]
    cbv
  obtain ⟨problem, refused⟩ : ∃ problem,
      (defineBlocks (Path.of "/a.slv") strayText).run.value = .error problem := ⟨_, by cbv⟩
  refine ⟨problem, ?_⟩
  unfold expand
  rw [Expanding.value_bind, Source.value_read _ known, read, absolute]
  change ((Source.expand ⟨_, strayText, .vertex⟩ _ _ _).run _).value = _
  rw [Source.value_expand, Source.value_body, refused]
  rfl

/-- The directory of the artifacts is made before the template turns out to be broken; the dependencies
that were found are kept. -/
theorem unspoilt_of_unexpanded_stray : ∃ problem,
    (strayTask.process (strayTask.obedient fun _ => .exited 0) strayState).1 =
        .error (.expansion problem) ∧
      strayTask.invocations (strayTask.obedient fun _ => .exited 0) .lookup strayState = [] ∧
      strayTask.Unspoilt (strayTask.obedient fun _ => .exited 0) strayState
        (strayTask.process (strayTask.obedient fun _ => .exited 0) strayState).2 := by
  have read : strayFiles.readText strayTask.source = .ok strayText := by cbv
  have laid : (strayTask.prepared strayFiles).readText strayTask.source = .ok strayText := by cbv
  have home : (strayTask.prepared strayFiles).workingDirectory = Path.of "/" := by cbv
  have stale : strayTask.isStale strayFiles
      (PathSet.empty.withSource strayFiles strayTask.source strayTask.headers) = true := by cbv
  have made : ∀ parent, strayTask.outputBase.parent? = some parent →
      (strayFiles.makeDirectories parent).1 = .ok () := by
    intro parent top
    have out : strayTask.outputBase.parent? = some (Path.of "/out") := by cbv
    obtain rfl := Option.some.inj (out.symm.trans top)
    cbv
  obtain ⟨problem, refused⟩ := unexpanded_stray laid home
  have moves : Moves strayTask (strayTask.obedient fun _ => .exited 0) .lookup strayState.quiet
      (.error (.expansion problem)) _ :=
    .step (.miss rfl) (.step (.discovered (discovered_stray read)) (.step (.store _)
      (.step (.rebuild stale rfl) (.step (.prepared made)
        (.step (.rediscovered (discovered_stray laid)) (.step (.restore _)
          (.step (.unexpanded refused) (.done _ _))))))))
  have failed := (Moves.complete moves rfl).1
  have result := unspoilt_of_unexpanded failed
  exact ⟨problem, failed, result.1, result.2.1⟩

end Task

end ShaderBuild
