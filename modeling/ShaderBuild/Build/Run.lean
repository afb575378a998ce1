import ShaderBuild.Build.Report
import ShaderBuild.Dependency.Snapshot
/-!
Running the commands of a list that is read from its file, and keeping the dependencies between runs.
-/
namespace ShaderBuild

def ShaderCommand.loadList (files : FileSystem) (path : Path) :
    Logged (Except BuildFailure (List ShaderCommand)) :=
  match files.readText path with
  | .error problem => pure (.error (.file path problem))
  | .ok text =>
    match parseList text with
    | .error problem => pure (.error (.badCommand problem))
    | .ok commands => do
      Logged.note .debug .commandList s!"Loaded {commands.length} build command(s) from {path}"
      pure (.ok commands)

/-- A run: its settings, and the programs it starts. -/
structure Run where
  settings : RunSettings
  tools : Tools

namespace Run

def task (run : Run) (command : ShaderCommand) : Task :=
  ⟨run.settings, command⟩

/-- One command after the other, until one fails. -/
def sequential (run : Run) (total : Nat) :
    List ShaderCommand → BuildState → Except BuildFailure RunReport × BuildState
  | [], state => (.ok ⟨[]⟩, state)
  | command :: rest, state =>
    match (run.task command).process run.tools state with
    | (.error problem, state) =>
      (.error (.commandsFailed total [FailedCommand.of command problem]), state)
    | (.ok outcome, state) =>
      match run.sequential total rest state with
      | (.ok report, state) => (.ok ⟨(command, outcome) :: report.commands⟩, state)
      | (.error problem, state) => (.error problem, state)

/-- Every command, whether others fail or not; the results in the order in which they came. -/
def each (run : Run) :
    List (ShaderCommand × Nat) → BuildState → List (Nat × CommandResult) × BuildState
  | [], state => ([], state)
  | (command, index) :: rest, state =>
    let (result, state) := (run.task command).process run.tools state
    let (results, state) := run.each rest state
    ((index, result) :: results, state)

/-- All commands by workers that take them in order; a single worker takes one after the other. The
workers themselves can always be started. -/
def parallel (run : Run) (commands : List ShaderCommand) (state : BuildState) :
    Except BuildFailure RunReport × BuildState :=
  let (finished, state) := run.each commands.zipIdx state
  (collectResults commands finished, state)

/-- How the commands are worked on, as a log entry says it. -/
def manner (run : Run) : String :=
  if run.settings.sequential then "sequential" else s!"{run.settings.workerCount} worker(s)"

/-- Saves the dependencies known after a run. When the run has failed already, that this fails too
is only logged. -/
def save (run : Run) (result : Except BuildFailure RunReport) (state : BuildState) :
    Except BuildFailure RunReport × BuildState :=
  let saved := Snapshot.save state.cache state.world run.settings.cachePath
  let state := { state with world := saved.value.2 }.record saved.log
  match saved.value.1, result with
  | .ok (), _ => (result, state)
  | .error problem, .ok _ => (.error problem, state)
  | .error problem, .error _ => (result, state.note .warn .orchestration problem.message)

/-- Works on commands, then saves the dependencies. -/
def runCommands (run : Run) (commands : List ShaderCommand) (state : BuildState) :
    Except BuildFailure RunReport × BuildState :=
  let state := state.note .info .orchestration
    s!"Processing {commands.length} shader command(s) ({run.manner})"
  let (result, state) :=
    if run.settings.sequential then run.sequential commands.length commands state
    else run.parallel commands state
  match run.save result state with
  | (.ok report, state) => (.ok report, state.note .info .orchestration report.summary)
  | (.error problem, state) => (.error problem, state)

/-- Reads the command list and works on it. -/
def runList (run : Run) (state : BuildState) : Except BuildFailure RunReport × BuildState :=
  match state.absorb (ShaderCommand.loadList state.world.files run.settings.commandList) with
  | (.ok commands, state) => run.runCommands commands state
  | (.error problem, state) => (.error problem, state)

/-- The state in which a run begins: what was saved is known. -/
def start (run : Run) (world : World) (fileLevel : Option Log.Level) : BuildState :=
  let loaded := Snapshot.loadOrEmpty world.files run.settings.cachePath
  (⟨world, loaded.value, [], [], fileLevel⟩ : BuildState).record loaded.log

end Run

end ShaderBuild
