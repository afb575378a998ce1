import ShaderBuild.Command.List
import ShaderBuild.Dependency.Key
import ShaderBuild.Expansion.Error
import ShaderBuild.Toolchain.Stage
/-!
Why a build, or a part of it, fails.
-/
namespace ShaderBuild

/-- Why saved dependencies cannot be loaded. -/
inductive SnapshotProblem where
  | unreadable (problem : FileError)
  /-- The text is no object of lists of paths. -/
  | malformed
  | badKey (problem : KeyError)
  deriving DecidableEq, Repr

def SnapshotProblem.message : SnapshotProblem → String
  | .unreadable problem => problem.message
  | .malformed => "expected an object of lists of paths"
  | .badKey problem => problem.message

/-- How a stage of the toolchain fails. -/
inductive StageFailure where
  | notStarted (problem : FileError)
  /-- The program ended with another status than zero, or by a signal, after writing `output`. -/
  | ended (status : ExitStatus) (output : Text)
  deriving DecidableEq, Repr

namespace StageFailure

def status : StageFailure → String
  | .notStarted _ => "failed to launch"
  | .ended status _ => status.message

def output : StageFailure → String
  | .notStarted problem => problem.message
  | .ended _ output => Text.str output

end StageFailure

/-- A command of a run that failed, and why. -/
structure FailedCommand where
  command : String
  message : String
  deriving DecidableEq, Repr

inductive BuildFailure where
  | badCommand (failure : CommandLineError)
  | expansion (problem : ExpansionError)
  | stageFailed (stage : ToolStage) (launch : Launch) (failure : StageFailure)
  | snapshot (path : Path) (problem : SnapshotProblem)
  | file (path : Path) (problem : FileError)
  | commandsFailed (total : Nat) (failures : List FailedCommand)
  /-- The worker of a command came to no result, for this reason. -/
  | abandoned (command reason : String)
  deriving DecidableEq, Repr

def FailedCommand.line (failure : FailedCommand) : String :=
  s!"  {failure.command}: {failure.message}"

def BuildFailure.message : BuildFailure → String
  | .badCommand failure => failure.message
  | .expansion problem => problem.message
  | .stageFailed stage launch failure =>
    s!"{stage.name} stage failed ({failure.status}): {launch.line}\n{failure.output}"
  | .snapshot path problem => s!"Dependency cache '{path}' is unreadable: {problem.message}"
  | .file path problem => s!"I/O error on '{path}': {problem}"
  | .commandsFailed total failures =>
    s!"{failures.length} of {total} shader command(s) failed:\n"
      ++ "\n".intercalate (failures.map FailedCommand.line)
  | .abandoned command reason => s!"Shader worker for '{command}' did not complete: {reason}"

end ShaderBuild
