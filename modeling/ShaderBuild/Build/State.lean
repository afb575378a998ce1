import ShaderBuild.Build.Failure
import ShaderBuild.Dependency.Store
import ShaderBuild.Expansion.Basic
import ShaderBuild.FileSystem.LogFile
/-!
What the commands of a run share: the world, the known dependencies, the log and the programs
started so far; and the external programs, which may answer and act in any way.
-/
namespace ShaderBuild

structure BuildState where
  world : World
  cache : DependencyStore
  log : List Log.Entry
  launches : List Launch
  /-- The log file takes entries up to this level; without a level there is no log file. -/
  fileLevel : Option Log.Level

/-- What a program leaves behind when it ends. -/
structure ToolReply where
  status : ExitStatus
  output : List UInt8
  errors : List UInt8
  deriving DecidableEq, Repr

/-- The behaviour of external programs: what a launch does to the world, given the launches before
it. -/
structure Tools where
  respond : List Launch → Launch → World → ToolReply × World

/-- What is shown of the output of a failed program: its output, then on a line of its own what it
wrote as errors, if that is not blank. -/
def ToolReply.report (reply : ToolReply) : Text :=
  let output := Text.trimEnd (Text.decodeLossy reply.output)
  let errors := Text.decodeLossy reply.errors
  if (Text.trim errors).isEmpty then output
  else if output.isEmpty then Text.trimEnd errors
  else output ++ '\n' :: Text.trimEnd errors

/-- Fails unless a launch can be started. The system looks up a program that is named without a
directory in a list of its own; that list is taken to be empty, and the program is not found. -/
def Launch.check (launch : Launch) (files : FileSystem) : Except FileError Unit :=
  if (launch.program.text :: launch.arguments).any fun text => text.contains '\x00' then
    .error .nulInLaunch
  else if launch.program.text.contains '/' then files.checkExecutable launch.program
  else .error .notFound

namespace BuildState

/-- Leaves log entries. -/
def record (state : BuildState) (entries : List Log.Entry) : BuildState :=
  { state with
    log := state.log ++ entries
    world := state.world.record state.fileLevel entries }

/-- Leaves one log entry. -/
def note (state : BuildState) (level : Log.Level) (origin : Log.Origin) (message : String) :
    BuildState :=
  state.record [⟨level, origin, message⟩]

/-- Takes over the log of a computation. -/
def absorb {α : Type} (state : BuildState) (run : Logged α) : α × BuildState :=
  (run.value, state.record run.log)

/-- The outcome of an expansion, and the state with its log. Every file is read as it is once the
log before it is left. -/
def expanding {α : Type} (state : BuildState) :
    Expanding α → Except BuildFailure α × BuildState
  | .ended log result => (result.mapError BuildFailure.expansion, state.record log)
  | .reading log path next =>
    let state := state.record log
    state.expanding (next (state.world.files.readText path))

theorem expanding_eq_run {α : Type} (state : BuildState) (expansion : Expanding α)
    (noFile : state.fileLevel = none) :
    state.expanding expansion =
      let run := expansion.run state.world.files
      (run.value.mapError BuildFailure.expansion, state.record run.log) := by
  induction expansion generalizing state with
  | ended log result => rfl
  | reading log path next ih =>
    have rest := ih (state.world.files.readText path) (state.record log) noFile
    simp only [record, noFile, World.record_none] at rest
    simp [expanding, Expanding.run, record, noFile, rest]

/-- The outcome of a change of the world on the file at a path. -/
def changing (state : BuildState) (path : Path) (change : World → Except FileError Unit × World) :
    Except BuildFailure Unit × BuildState :=
  let (result, world) := change state.world
  (result.mapError (BuildFailure.file path), { state with world := world })

/-- Starts the program of a stage and waits for its end. -/
def launch (state : BuildState) (tools : Tools) (stage : ToolStage) (launch : Launch) :
    Except BuildFailure Unit × BuildState :=
  let state := state.note .debug .toolchain s!"Running {stage.name}: {launch.line}"
  match launch.check state.world.files with
  | .error problem => (.error (.stageFailed stage launch (.notStarted problem)), state)
  | .ok () =>
    let (reply, world) := tools.respond state.launches launch state.world
    let state := { state with world := world, launches := state.launches ++ [launch] }
    if reply.status = .exited 0 then (.ok (), state)
    else (.error (.stageFailed stage launch (.ended reply.status reply.report)), state)

end BuildState

end ShaderBuild
