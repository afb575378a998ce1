import ShaderBuild.Build.Task
/-!
Reports of runs, and how the results of all commands become one.
-/
namespace ShaderBuild

def Outcome.name : Outcome → String
  | .rebuilt => "rebuilt"
  | .upToDate => "up to date"
  | .wouldRebuild => "would rebuild"

/-- What became of the commands of a run in which none failed. -/
structure RunReport where
  commands : List (ShaderCommand × Outcome)
  deriving DecidableEq, Repr

namespace RunReport

def count (report : RunReport) (outcome : Outcome) : Nat :=
  report.commands.countP fun entry => entry.2 == outcome

/-- The numbers of commands of each outcome. -/
def summary (report : RunReport) : String :=
  s!"{report.count .rebuilt} rebuilt, {report.count .upToDate} up to date, "
    ++ s!"{report.count .wouldRebuild} would rebuild"

end RunReport

/-- The result of one command of a run. -/
abbrev CommandResult := Except BuildFailure Outcome

def FailedCommand.of (command : ShaderCommand) (problem : BuildFailure) : FailedCommand :=
  ⟨command.describe, problem.message⟩

/-- The outcomes of the commands that succeeded, and the others as failures, both in order. -/
def partitionResults :
    List (ShaderCommand × CommandResult) → List (ShaderCommand × Outcome) × List FailedCommand
  | [] => ([], [])
  | (command, result) :: rest =>
    let (done, failed) := partitionResults rest
    match result with
    | .ok outcome => ((command, outcome) :: done, failed)
    | .error problem => (done, FailedCommand.of command problem :: failed)

/-- The result of the command at `index` among results in the order in which they came; a command
without one was abandoned. -/
def resultAt (finished : List (Nat × CommandResult)) (index : Nat) (command : ShaderCommand) :
    CommandResult :=
  (finished.lookup index).getD (.error (.abandoned command.describe "task was cancelled"))

/-- The result of a run whose commands end in any order: a report, or all failures, in the order of
the list. -/
def collectResults (commands : List ShaderCommand) (finished : List (Nat × CommandResult)) :
    Except BuildFailure RunReport :=
  let results := commands.zipIdx.map fun entry => (entry.1, resultAt finished entry.2 entry.1)
  match partitionResults results with
  | (done, []) => .ok ⟨done⟩
  | (_, failures) => .error (.commandsFailed commands.length failures)

end ShaderBuild
