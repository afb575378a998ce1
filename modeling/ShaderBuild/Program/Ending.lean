import ShaderBuild.Build.Failure
import ShaderBuild.CommandLine.Grammar
import ShaderBuild.Config.Document
import ShaderBuild.FileSystem.World
/-!
How programs end, and the words in which they report failures.
-/
namespace ShaderBuild

/-- The state in which a program leaves the world, and what it wrote on the way. -/
structure Ending where
  /-- The exit status: zero for success, two for a misused command line, one for any other
  failure. -/
  status : Nat
  output : Text
  errors : Text
  world : World
  /-- The external programs that were started. -/
  launches : List Launch

/-- A program by its name. -/
structure Program where
  name : String

namespace Program

/-- The version of all programs. -/
def version : String := "0.4.0"

/-- The name and the version. -/
def banner (program : Program) : String :=
  s!"{program.name} {version}"

def usage (program : Program) : String :=
  s!"Usage: {program.name} [OPTIONS]\n"

/-- The line on standard error that reports a failure: what failed, and the reasons for it. -/
def failureLine (program : Program) (reasons : List String) : Text :=
  let reason := ": ".intercalate reasons
  s!"{program.name}: error: {reason}\n".toList

/-- The end of a program whose command line gives no options. -/
def halt {Options : Type} (program : Program) (switches : List (CommandLine.Switch Options))
    (world : World) : CommandLine.Halt → Ending
  | .help =>
    let lines := program.usage :: "Options:" :: switches.map CommandLine.Switch.synopsis
    ⟨0, ("\n".intercalate lines ++ "\n").toList, [], world, []⟩
  | .version => ⟨0, (program.banner ++ "\n").toList, [], world, []⟩
  | .misuse problem =>
    ⟨2, [], s!"error: {problem.message}\n\n{program.usage}".toList, world, []⟩

end Program

/-! A failure and the one that caused it are reported one after the other, even if the first names
the second already. -/

/-- The failed file operation behind the failure of an expansion. -/
def ExpansionError.cause? : ExpansionError → Option FileError
  | .unreadable _ problem => some problem
  | _ => none

def ExpansionError.reasons (problem : ExpansionError) : List String :=
  problem.message :: problem.cause?.toList.map FileError.message

/-- The failed file operation behind the failure of a build. -/
def BuildFailure.cause? : BuildFailure → Option FileError
  | .file _ problem => some problem
  | .expansion problem => problem.cause?
  | _ => none

def BuildFailure.reasons (problem : BuildFailure) : List String :=
  problem.message :: problem.cause?.toList.map FileError.message

/-- The failed file operation behind a configuration that cannot be loaded. -/
def ConfigError.cause? : ConfigError → Option FileError
  | .unreadable _ problem => some problem
  | .malformed _ => none

def ConfigError.reasons (problem : ConfigError) : List String :=
  problem.message :: problem.cause?.toList.map FileError.message

end ShaderBuild
