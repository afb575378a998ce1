import ShaderBuild.Build.Task
/-!
What one step of the work on a command can do to the world and to the known dependencies when no log
file is kept, and induction along the steps.
-/
namespace ShaderBuild

namespace Task

/-- What the search for the dependencies of the command comes to among the files. -/
def discovered (task : Task) (files : FileSystem) : Except ExpansionError PathSet :=
  ((discover files task.searchPath task.source task.headers).run files).value

/-- The files once the directory of the artifacts is made, as far as that can be done. -/
def prepared (task : Task) (files : FileSystem) : FileSystem :=
  match task.outputBase.parent? with
  | none => files
  | some parent => (files.makeDirectories parent).2

/-- How a command starts the program of a stage. -/
def launchOf (task : Task) (stage : ToolStage) : Launch :=
  stage.launch task.settings.toolsDirectory task.artifacts task.command.dialect

/-- A step from a phase and a state to the next, but for what it logs. -/
inductive Move (task : Task) (tools : Tools) :
    Phase → BuildState → Phase → BuildState → Prop where
  | hit {state : BuildState} {set : PathSet} (known : state.cache.find? task.key = some set) :
      Move task tools .lookup state (.judge set) state
  | miss {state : BuildState} (unknown : state.cache.find? task.key = none) :
      Move task tools .lookup state .discover state
  | discovered {state : BuildState} {set : PathSet}
      (found : task.discovered state.world.files = .ok set) :
      Move task tools .discover state (.store set) state
  | undiscovered {state : BuildState} {problem : ExpansionError}
      (failed : task.discovered state.world.files = .error problem) :
      Move task tools .discover state (.finished (.error (.expansion problem))) state
  | store {state : BuildState} (set : PathSet) :
      Move task tools (.store set) state (.judge set)
        { state with cache := state.cache.insert task.key set }
  | fresh {state : BuildState} {set : PathSet}
      (current : task.isStale state.world.files set = false) :
      Move task tools (.judge set) state .refresh state
  | report {state : BuildState} {set : PathSet}
      (stale : task.isStale state.world.files set = true) (dry : task.settings.dryRun = true) :
      Move task tools (.judge set) state (.finished (.ok .wouldRebuild)) state
  | rebuild {state : BuildState} {set : PathSet}
      (stale : task.isStale state.world.files set = true) (wet : task.settings.dryRun = false) :
      Move task tools (.judge set) state .prepare state
  | refreshed {state : BuildState} {count : Nat} {files : FileSystem}
      (done : Freshness.refresh state.world.now state.world.files task.artifacts.all =
        (.ok count, files)) :
      Move task tools .refresh state (.finished (.ok .upToDate))
        { state with world := state.world.after files }
  | unrefreshed {state : BuildState} {path : Path} {problem : FileError} {files : FileSystem}
      (failed : Freshness.refresh state.world.now state.world.files task.artifacts.all =
        (.error (path, problem), files)) :
      Move task tools .refresh state (.finished (.error (.file path problem)))
        { state with world := state.world.after files }
  | prepared {state : BuildState}
      (made : ∀ parent, task.outputBase.parent? = some parent →
        (state.world.files.makeDirectories parent).1 = .ok ()) :
      Move task tools .prepare state .rediscover
        { state with world := { state.world with files := task.prepared state.world.files } }
  | unprepared {state : BuildState} {parent : Path} {problem : FileError}
      (directory : task.outputBase.parent? = some parent)
      (failed : (state.world.files.makeDirectories parent).1 = .error problem) :
      Move task tools .prepare state (.finished (.error (.file parent problem)))
        { state with world := { state.world with files := task.prepared state.world.files } }
  | rediscovered {state : BuildState} {set : PathSet}
      (found : task.discovered state.world.files = .ok set) :
      Move task tools .rediscover state (.restore set) state
  | unrediscovered {state : BuildState} {problem : ExpansionError}
      (failed : task.discovered state.world.files = .error problem) :
      Move task tools .rediscover state (.finished (.error (.expansion problem))) state
  | restore {state : BuildState} (set : PathSet) :
      Move task tools (.restore set) state .expand
        { state with cache := state.cache.insert task.key set }
  | expanded {state : BuildState} {expansion : Expanded}
      (done : ((task.expand state.world.files).run state.world.files).value = .ok expansion) :
      Move task tools .expand state (.write expansion.text) state
  | unexpanded {state : BuildState} {problem : ExpansionError}
      (failed : ((task.expand state.world.files).run state.world.files).value = .error problem) :
      Move task tools .expand state (.finished (.error (.expansion problem))) state
  | written {state : BuildState} {text : Text} {files : FileSystem}
      (done : state.world.files.write task.artifacts.expanded state.world.now (.text text) =
        .ok files) :
      Move task tools (.write text) state (.run .compile)
        { state with world := state.world.after files }
  | unwritten {state : BuildState} {text : Text} {problem : FileError}
      (failed : state.world.files.write task.artifacts.expanded state.world.now (.text text) =
        .error problem) :
      Move task tools (.write text) state
        (.finished (.error (.file task.artifacts.expanded problem))) state
  | unstarted {state : BuildState} {stage : ToolStage} {problem : FileError}
      (refused : (task.launchOf stage).check state.world.files = .error problem) :
      Move task tools (.run stage) state
        (.finished (.error (.stageFailed stage (task.launchOf stage) (.notStarted problem)))) state
  | exited {state : BuildState} {stage : ToolStage} {reply : ToolReply} {world : World}
      (started : (task.launchOf stage).check state.world.files = .ok ())
      (ended : tools.respond state.launches (task.launchOf stage) state.world = (reply, world))
      (failed : reply.status ≠ .exited 0) :
      Move task tools (.run stage) state
        (.finished (.error (.stageFailed stage (task.launchOf stage)
          (.ended reply.status reply.report))))
        { state with world := world, launches := state.launches ++ [task.launchOf stage] }
  | succeeded {state : BuildState} {stage : ToolStage} {reply : ToolReply} {world : World}
      (started : (task.launchOf stage).check state.world.files = .ok ())
      (ended : tools.respond state.launches (task.launchOf stage) state.world = (reply, world))
      (done : reply.status = .exited 0) :
      Move task tools (.run stage) state (Phase.afterStage stage)
        { state with world := world, launches := state.launches ++ [task.launchOf stage] }

end Task

/-- The state without its log. -/
def BuildState.quiet (state : BuildState) : BuildState :=
  { state with log := [] }

theorem BuildState.record_eq {state : BuildState} (noFile : state.fileLevel = none)
    (entries : List Log.Entry) :
    state.record entries = { state with log := state.log ++ entries } := by
  simp [record, noFile]

theorem BuildState.quiet_record {state : BuildState} (noFile : state.fileLevel = none)
    (entries : List Log.Entry) : (state.record entries).quiet = state.quiet := by
  rw [record_eq noFile]
  rfl

namespace Task

variable {task : Task} {tools : Tools} {phase : Phase} {state : BuildState}

/-- What comes next is a move away. -/
private def Leads (task : Task) (tools : Tools) (phase : Phase) (state : BuildState)
    (next : Phase × BuildState) : Prop :=
  Move task tools phase state.quiet next.1 next.2.quiet

section

variable (noFile : state.fileLevel = none)
include noFile

private theorem moves_lookup : Leads task tools .lookup state (task.stepLookup state) := by
  unfold stepLookup Leads
  split <;> dsimp only [BuildState.note] <;> rw [BuildState.quiet_record noFile]
  · exact .hit ‹_›
  · exact .miss ‹_›

private theorem moves_discover {onward : PathSet → Phase}
    (found : ∀ set, task.discovered state.world.files = .ok set →
      Move task tools phase state.quiet (onward set) state.quiet)
    (failed : ∀ problem, task.discovered state.world.files = .error problem →
      Move task tools phase state.quiet (.finished (.error (.expansion problem))) state.quiet) :
    Leads task tools phase state (task.stepDiscover onward state) := by
  unfold stepDiscover Leads
  rw [BuildState.expanding_eq_run _ _ noFile]
  dsimp only
  cases outcome : ((discover state.world.files task.searchPath task.source task.headers).run
    state.world.files).value with
  | ok set =>
    dsimp only [Phase.next, Except.mapError]
    rw [BuildState.quiet_record noFile]
    exact found set outcome
  | error problem =>
    dsimp only [Phase.next, Except.mapError]
    rw [BuildState.quiet_record noFile]
    exact failed problem outcome

private theorem moves_judge (set : PathSet) :
    Leads task tools (.judge set) state (task.stepJudge set state) := by
  unfold stepJudge Leads
  by_cases stale : task.isStale state.world.files set = true
  · rw [if_pos stale]
    by_cases dry : task.settings.dryRun = true
    · rw [if_pos dry]
      dsimp only [BuildState.note]
      rw [BuildState.quiet_record noFile]
      exact .report stale dry
    · rw [if_neg dry]
      dsimp only [BuildState.note]
      rw [BuildState.quiet_record noFile]
      exact .rebuild stale (by simpa using dry)
  · rw [if_neg stale]
    rw [Bool.not_eq_true] at stale
    exact .fresh stale

private theorem moves_refresh : Leads task tools .refresh state (task.stepRefresh state) := by
  unfold stepRefresh Leads
  split
  · rename_i count files done
    dsimp only [BuildState.note]
    rw [@BuildState.quiet_record { state with world := state.world.after files } noFile]
    exact @Move.refreshed task tools state.quiet count files done
  · rename_i path problem files failed
    exact @Move.unrefreshed task tools state.quiet path problem files failed

private theorem moves_expand : Leads task tools .expand state (task.stepExpand state) := by
  unfold stepExpand Leads
  rw [BuildState.expanding_eq_run _ _ noFile]
  dsimp only
  cases outcome : ((task.expand state.world.files).run state.world.files).value with
  | ok expansion =>
    dsimp only [Phase.next, Except.mapError]
    rw [BuildState.quiet_record noFile]
    exact .expanded outcome
  | error problem =>
    dsimp only [Phase.next, Except.mapError]
    rw [BuildState.quiet_record noFile]
    exact .unexpanded outcome

private theorem moves_run (stage : ToolStage) :
    Leads task tools (.run stage) state (task.stepRun tools stage state) := by
  unfold stepRun Leads BuildState.launch BuildState.note
  rw [BuildState.record_eq noFile]
  dsimp only
  cases started : (task.launchOf stage).check state.world.files with
  | error problem =>
    have move := @Move.unstarted task tools state.quiet stage problem started
    unfold launchOf at started
    rw [started]
    exact move
  | ok =>
    have exited := @Move.exited task tools state.quiet stage _ _ started rfl
    have succeeded := @Move.succeeded task tools state.quiet stage _ _ started rfl
    unfold launchOf at started
    rw [started]
    change Move task tools _ _
      (Phase.next _ (if (tools.respond state.launches (task.launchOf stage) state.world).1.status = .exited 0
        then _ else _)).1
      (Phase.next _ (if (tools.respond state.launches (task.launchOf stage) state.world).1.status = .exited 0
        then _ else _)).2.quiet
    split
    · exact succeeded ‹_›
    · exact exited ‹_›

end

private theorem moves_prepare : Leads task tools .prepare state (task.stepPrepare state) := by
  unfold stepPrepare Leads
  split
  · rename_i top
    have files : task.prepared state.world.files = state.world.files := by
      simp [Task.prepared, top]
    have move := @Move.prepared task tools state.quiet (by simp [top])
    change Move task tools _ _ _ { state.quiet with
      world := { state.world with files := task.prepared state.world.files } } at move
    rw [files] at move
    exact move
  · rename_i parent top
    have files : task.prepared state.world.files =
        (state.world.files.makeDirectories parent).2 := by
      simp [Task.prepared, top]
    dsimp only [BuildState.changing, World.makeDirectories]
    rw [← files]
    cases outcome : (state.world.files.makeDirectories parent).1 with
    | ok =>
      refine @Move.prepared task tools state.quiet fun other same => ?_
      rw [← Option.some.inj (top.symm.trans same)]
      exact outcome
    | error problem => exact @Move.unprepared task tools state.quiet parent problem top outcome

private theorem moves_write (text : Text) :
    Leads task tools (.write text) state (task.stepWrite text state) := by
  unfold stepWrite Leads
  dsimp only [BuildState.changing, World.write, World.change]
  cases outcome : state.world.files.write task.artifacts.expanded state.world.now (.text text) with
  | ok files => exact @Move.written task tools state.quiet text files outcome
  | error problem => exact @Move.unwritten task tools state.quiet text problem outcome

/-- Each step is a move. -/
theorem move_of_step (noFile : state.fileLevel = none) (running : phase.result? = none) :
    Move task tools phase state.quiet (task.step tools phase state).1
      (task.step tools phase state).2.quiet := by
  cases phase with
  | lookup => exact moves_lookup noFile
  | discover =>
    exact moves_discover noFile (fun _ found => .discovered found)
      fun _ failed => .undiscovered failed
  | store set => exact .store set
  | judge set => exact moves_judge noFile set
  | refresh => exact moves_refresh noFile
  | prepare => exact moves_prepare
  | rediscover =>
    exact moves_discover noFile (fun _ found => .rediscovered found)
      fun _ failed => .unrediscovered failed
  | restore set => exact .restore set
  | expand => exact moves_expand noFile
  | write text => exact moves_write text
  | run stage => exact moves_run noFile stage
  | finished result => simp [Phase.result?] at running

theorem Move.fileLevel {next : Phase} {after : BuildState}
    (move : Move task tools phase state next after) : after.fileLevel = state.fileLevel := by
  cases move <;> rfl

theorem Move.running {next : Phase} {after : BuildState}
    (move : Move task tools phase state next after) : phase.result? = none := by
  cases move <;> rfl

/-- There is one move at most. -/
theorem Move.unique {next other : Phase} {after instead : BuildState}
    (move : Move task tools phase state next after)
    (again : Move task tools phase state other instead) : other = next ∧ instead = after := by
  cases move <;> cases again <;> simp_all

theorem step_induction (task : Task) (tools : Tools) {motive : Phase → BuildState → Prop}
    (finished : ∀ result state, motive (.finished result) state)
    (running : ∀ phase state, phase.result? = none →
      motive (task.step tools phase state).1 (task.step tools phase state).2 → motive phase state)
    (phase : Phase) (state : BuildState) : motive phase state := by
  induction phase, state using complete.induct task tools with
  | case1 phase state result ended =>
    obtain rfl : phase = .finished result := by cases phase <;> simp_all [Phase.result?]
    exact finished result state
  | case2 phase state goes next ih => exact running phase state goes ih

theorem complete_finished (result : Except BuildFailure Outcome) (state : BuildState) :
    task.complete tools (.finished result) state = (result, state) := by
  rw [complete]
  rfl

theorem complete_running (running : phase.result? = none) (state : BuildState) :
    task.complete tools phase state =
      task.complete tools (task.step tools phase state).1 (task.step tools phase state).2 := by
  rw [complete]
  split
  · simp_all
  · rfl

/-- What every move preserves holds when the work is finished. -/
theorem complete_induction {motive : Phase → BuildState → Prop}
    (preserved : ∀ phase state next after, Move task tools phase state next after →
      motive phase state → motive next after)
    (phase : Phase) (state : BuildState) (noFile : state.fileLevel = none)
    (start : motive phase state.quiet) :
    motive (.finished (task.complete tools phase state).1)
      (task.complete tools phase state).2.quiet := by
  induction phase, state using step_induction task tools with
  | finished result state =>
    rw [complete_finished]
    exact start
  | running phase state running ih =>
    have move := @move_of_step task tools phase state noFile running
    rw [complete_running running]
    exact ih (move.fileLevel.trans noFile) (preserved _ _ _ _ move start)

/-- No log file is started on the way. -/
theorem fileLevel_process (noFile : state.fileLevel = none) :
    (task.process tools state).2.fileLevel = none := by
  refine complete_induction (motive := fun _ state => state.fileLevel = none) ?_ .lookup state
    noFile noFile
  intro phase state next after move quiet
  rw [move.fileLevel, quiet]

/-- The phases and states that the work on a command goes through. -/
inductive Comes (task : Task) (tools : Tools) (begun : BuildState) :
    Phase → BuildState → Prop where
  | start : Comes task tools begun .lookup begun
  | step {phase : Phase} {state : BuildState} (earlier : Comes task tools begun phase state)
      (running : phase.result? = none) :
      Comes task tools begun (task.step tools phase state).1 (task.step tools phase state).2

namespace Comes

variable {begun : BuildState} (comes : Comes task tools begun phase state)
  (noFile : begun.fileLevel = none)
include comes noFile

/-- What every move preserves holds all along. -/
theorem along {motive : Phase → BuildState → Prop} (start : motive .lookup begun.quiet)
    (preserved : ∀ phase state next after, Move task tools phase state next after →
      motive phase state → motive next after) :
    state.fileLevel = none ∧ motive phase state.quiet := by
  induction comes with
  | start => exact ⟨noFile, start⟩
  | @step phase state earlier running ih =>
    have move := @move_of_step task tools phase state ih.1 running
    exact ⟨move.fileLevel.trans ih.1, preserved _ _ _ _ move ih.2⟩

/-- The next step is the move that there is. -/
theorem move {next : Phase} {now after : BuildState} (same : state.quiet = now)
    (move : Move task tools phase now next after) :
    ∃ later, Comes task tools begun next later ∧ later.quiet = after := by
  subst same
  have quiet : state.fileLevel = none :=
    (comes.along (motive := fun _ _ => True) noFile trivial fun _ _ _ _ _ _ => trivial).1
  obtain ⟨same, state⟩ := (move_of_step quiet move.running).unique move
  rw [same, state]
  exact ⟨_, comes.step move.running, rfl⟩

end Comes

/-- The work comes to its end. -/
theorem comes_process (task : Task) (tools : Tools) (begun : BuildState) :
    Comes task tools begun (.finished (task.process tools begun).1) (task.process tools begun).2 := by
  have onward : ∀ phase state, Comes task tools begun phase state →
      Comes task tools begun (.finished (task.complete tools phase state).1)
        (task.complete tools phase state).2 := by
    intro phase state
    induction phase, state using step_induction task tools with
    | finished result state =>
      intro comes
      rw [complete_finished]
      exact comes
    | running phase state running ih =>
      intro comes
      rw [complete_running running]
      exact ih (comes.step running)
  exact onward .lookup begun .start

/-- Moves one after the other to the end of the work. -/
inductive Moves (task : Task) (tools : Tools) :
    Phase → BuildState → Except BuildFailure Outcome → BuildState → Prop where
  | done (result : Except BuildFailure Outcome) (state : BuildState) :
      Moves task tools (.finished result) state result state
  | step {phase next : Phase} {state later after : BuildState}
      {result : Except BuildFailure Outcome} (move : Move task tools phase state next later)
      (rest : Moves task tools next later result after) : Moves task tools phase state result after

/-- Moves to the end show how the work ends. -/
theorem Moves.complete {result : Except BuildFailure Outcome} {after : BuildState}
    (moves : Moves task tools phase state.quiet result after) (noFile : state.fileLevel = none) :
    (task.complete tools phase state).1 = result ∧
      (task.complete tools phase state).2.quiet = after := by
  have ends : Moves task tools (.finished (task.complete tools phase state).1)
      (task.complete tools phase state).2.quiet result after := by
    refine complete_induction
      (motive := fun phase state => Moves task tools phase state result after) ?_ _ _ noFile moves
    intro phase state next later move moves
    cases moves with
    | done => cases move
    | step first rest =>
      obtain ⟨rfl, rfl⟩ := first.unique move
      exact rest
  generalize (task.complete tools phase state).1 = last at ends
  generalize (task.complete tools phase state).2.quiet = final at ends
  cases ends with
  | done => exact ⟨rfl, rfl⟩
  | step move _ => cases move

end Task

end ShaderBuild
