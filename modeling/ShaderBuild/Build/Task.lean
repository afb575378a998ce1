import ShaderBuild.Build.State
import ShaderBuild.Expansion.Source
import ShaderBuild.Freshness
import ShaderBuild.RunSettings
/-!
The work on one command, as a sequence of steps on the shared state. Each step is what a worker does
without another worker in between, so runs of several workers are interleavings of steps.
-/
namespace ShaderBuild

/-- What became of a command that did not fail. -/
inductive Outcome where
  | rebuilt
  | upToDate
  | wouldRebuild
  deriving DecidableEq, Repr

/-- A command together with the settings of its run. -/
structure Task where
  settings : RunSettings
  command : ShaderCommand
  deriving DecidableEq, Repr

namespace Task

def layout (task : Task) : SourceTree :=
  ⟨task.settings.sourceDirectory⟩

def outputBase (task : Task) : Path :=
  task.layout.resolve task.command.outputBase

def artifacts (task : Task) : Artifacts :=
  ⟨task.outputBase⟩

def source (task : Task) : Path :=
  task.layout.resolve task.command.source

def searchPath (task : Task) : SearchPath :=
  task.layout.searchPath task.command.libraries

def headers (task : Task) : List Path :=
  task.layout.headers task.command.dialect task.command.variant

def key (task : Task) : DependencyKey :=
  DependencyKey.ofCommand task.command

/-- The macro for the graphics profile comes after the headers and the stage. -/
def preamble (task : Task) : Preamble :=
  ⟨task.headers, [("GLPROFILE".toList, task.settings.glProfile)]⟩

/-- Where the work on a command stands. -/
inductive Phase where
  /-- Look the dependencies up. -/
  | lookup
  /-- Find the dependencies, none being known. -/
  | discover
  /-- Store what was found. -/
  | store (set : PathSet)
  /-- Compare the times of the dependencies and the artifacts. -/
  | judge (set : PathSet)
  /-- Give the artifacts the current time. -/
  | refresh
  /-- Create the directory of the artifacts. -/
  | prepare
  /-- Find the dependencies afresh. -/
  | rediscover
  /-- Store what was found afresh. -/
  | restore (set : PathSet)
  /-- Read and expand the source. -/
  | expand
  /-- Write the expanded text. -/
  | write (text : Text)
  /-- Run a stage of the toolchain. -/
  | run (stage : ToolStage)
  | finished (result : Except BuildFailure Outcome)

namespace Phase

/-- A bound on the number of steps that are left. -/
def rank : Phase → Nat
  | .lookup => 13
  | .discover => 12
  | .store _ => 11
  | .judge _ => 10
  | .refresh => 9
  | .prepare => 9
  | .rediscover => 8
  | .restore _ => 7
  | .expand => 6
  | .write _ => 5
  | .run .compile => 4
  | .run .optimize => 3
  | .run .reflect => 2
  | .run .crossCompile => 1
  | .finished _ => 0

/-- How the work ended, if it did. -/
def result? : Phase → Option (Except BuildFailure Outcome)
  | .finished result => some result
  | _ => none

/-- The phase after a stage that succeeded. -/
def afterStage : ToolStage → Phase
  | .compile => .run .optimize
  | .optimize => .run .reflect
  | .reflect => .run .crossCompile
  | .crossCompile => .finished (.ok .rebuilt)

/-- The phase after a partial result: the work ends with the first error. -/
def next {α : Type} (onward : α → Phase) : Except BuildFailure α × BuildState → Phase × BuildState
  | (.ok value, state) => (onward value, state)
  | (.error problem, state) => (.finished (.error problem), state)

end Phase

/-- The artifacts are to be rebuilt. -/
def isStale (task : Task) (files : FileSystem) (set : PathSet) : Bool :=
  task.settings.force || Freshness.filesStale files set.paths task.artifacts.all

def stepLookup (task : Task) (state : BuildState) : Phase × BuildState :=
  match state.cache.find? task.key with
  | some set =>
    (.judge set, state.note .trace .dependencyCache s!"Dependency cache hit for {task.key}")
  | none => (.discover, state.note .trace .dependencyCache s!"Dependency cache miss for {task.key}")

/-- Finds the dependencies; this reads files and changes nothing but the log. -/
def stepDiscover (task : Task) (onward : PathSet → Phase) (state : BuildState) :
    Phase × BuildState :=
  Phase.next onward
    (state.expanding (discover state.world.files task.searchPath task.source task.headers))

def stepStore (task : Task) (onward : Phase) (set : PathSet) (state : BuildState) :
    Phase × BuildState :=
  (onward, { state with cache := state.cache.insert task.key set })

/-- Stale artifacts are rebuilt, or only reported in a dry run; others are refreshed in both. -/
def stepJudge (task : Task) (set : PathSet) (state : BuildState) : Phase × BuildState :=
  if task.isStale state.world.files set then
    if task.settings.dryRun then
      (.finished (.ok .wouldRebuild),
        state.note .info .orchestration s!"Would rebuild {task.command.describe}")
    else
      (.prepare, state.note .info .orchestration s!"Processing file {task.command.describe}")
  else (.refresh, state)

def stepRefresh (task : Task) (state : BuildState) : Phase × BuildState :=
  match Freshness.refresh state.world.now state.world.files task.artifacts.all with
  | (.ok _, files) =>
    (.finished (.ok .upToDate),
      { state with world := state.world.after files }.note .debug .orchestration
        s!"Up to date: {task.command.describe}")
  | (.error (path, problem), files) =>
    (.finished (.error (.file path problem)), { state with world := state.world.after files })

def stepPrepare (task : Task) (state : BuildState) : Phase × BuildState :=
  match task.outputBase.parent? with
  | none => (.rediscover, state)
  | some parent =>
    Phase.next (fun _ => .rediscover)
      (state.changing parent fun world => world.makeDirectories parent)

/-- Reads and expands the source. -/
def expand (task : Task) (files : FileSystem) : Expanding Expanded := do
  let source ← Source.read files task.source
  source.expand files task.searchPath task.preamble

/-- Expands the source; this reads files and changes nothing but the log. -/
def stepExpand (task : Task) (state : BuildState) : Phase × BuildState :=
  Phase.next (fun expansion => .write expansion.text)
    (state.expanding (task.expand state.world.files))

def stepWrite (task : Task) (text : Text) (state : BuildState) : Phase × BuildState :=
  Phase.next (fun _ => .run .compile)
    (state.changing task.artifacts.expanded fun world =>
      world.write task.artifacts.expanded (.text text))

def stepRun (task : Task) (tools : Tools) (stage : ToolStage) (state : BuildState) :
    Phase × BuildState :=
  Phase.next (fun _ => Phase.afterStage stage)
    (state.launch tools stage
      (stage.launch task.settings.toolsDirectory task.artifacts task.command.dialect))

/-- The next step of the work on a command. -/
def step (task : Task) (tools : Tools) : Phase → BuildState → Phase × BuildState
  | .lookup, state => task.stepLookup state
  | .discover, state => task.stepDiscover .store state
  | .store set, state => task.stepStore (.judge set) set state
  | .judge set, state => task.stepJudge set state
  | .refresh, state => task.stepRefresh state
  | .prepare, state => task.stepPrepare state
  | .rediscover, state => task.stepDiscover .restore state
  | .restore set, state => task.stepStore .expand set state
  | .expand, state => task.stepExpand state
  | .write text, state => task.stepWrite text state
  | .run stage, state => task.stepRun tools stage state
  | .finished result, state => (.finished result, state)

theorem rank_next {α : Type} {onward : α → Phase} {bound : Nat} (positive : 0 < bound)
    (lower : ∀ value, (onward value).rank < bound) (result : Except BuildFailure α × BuildState) :
    (Phase.next onward result).1.rank < bound := by
  obtain ⟨outcome, state⟩ := result
  cases outcome with
  | ok value => exact lower value
  | error problem => exact positive

/-- Every step brings the work nearer to its end. -/
theorem rank_step (task : Task) (tools : Tools) (phase : Phase) (state : BuildState)
    (running : phase.result? = none) :
    (task.step tools phase state).1.rank < phase.rank := by
  cases phase with
  | lookup =>
    change (task.stepLookup state).1.rank < 13
    unfold stepLookup
    split <;> simp [Phase.rank]
  | discover => exact rank_next (by simp [Phase.rank]) (fun _ => by simp [Phase.rank]) _
  | store => exact Nat.lt_succ_self _
  | judge set =>
    change (task.stepJudge set state).1.rank < 10
    unfold stepJudge
    split
    · split <;> simp [Phase.rank]
    · simp [Phase.rank]
  | refresh =>
    change (task.stepRefresh state).1.rank < 9
    unfold stepRefresh
    split <;> simp [Phase.rank]
  | prepare =>
    change (task.stepPrepare state).1.rank < 9
    unfold stepPrepare
    split
    · simp [Phase.rank]
    · exact rank_next (Nat.succ_pos _) (fun _ => Nat.lt_succ_self _) _
  | rediscover => exact rank_next (by simp [Phase.rank]) (fun _ => by simp [Phase.rank]) _
  | restore => exact Nat.lt_succ_self _
  | expand => exact rank_next (by simp [Phase.rank]) (fun _ => by simp [Phase.rank]) _
  | write => exact rank_next (by simp [Phase.rank]) (fun _ => by simp [Phase.rank]) _
  | run stage =>
    cases stage <;> exact rank_next (Nat.succ_pos _) (fun _ => Nat.lt_succ_self _) _
  | finished result => simp [Phase.result?] at running

/-- Does all steps from a phase on. -/
def complete (task : Task) (tools : Tools) (phase : Phase) (state : BuildState) :
    Except BuildFailure Outcome × BuildState :=
  match _running : phase.result? with
  | some result => (result, state)
  | none =>
    let next := task.step tools phase state
    task.complete tools next.1 next.2
  termination_by phase.rank
  decreasing_by exact rank_step task tools phase state _running

/-- Does the whole work on a command. -/
def process (task : Task) (tools : Tools) (state : BuildState) :
    Except BuildFailure Outcome × BuildState :=
  task.complete tools .lookup state

end Task

end ShaderBuild
