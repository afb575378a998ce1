import ShaderBuild.SourceTree
/-!
The four stages that turn an expanded template into the other artifacts, and how their programs are
called.
-/
namespace ShaderBuild

inductive ToolStage where
  | compile
  | optimize
  | reflect
  | crossCompile
  deriving DecidableEq, Repr

/-- The start of a program. -/
structure Launch where
  program : Path
  arguments : List Text
  deriving DecidableEq, Repr

/-- The launch as one line. -/
def Launch.line (launch : Launch) : String :=
  " ".intercalate (toString launch.program :: launch.arguments.map Text.str)

/-- How a program ends. -/
inductive ExitStatus where
  | exited (code : Nat)
  /-- A signal ended the program, and its memory was saved or not. -/
  | killed (signal : Nat) (dumped : Bool)
  deriving DecidableEq, Repr

namespace ExitStatus

/-- The names of the signals, from the first on. -/
def signalNames : List String :=
  ["SIGHUP", "SIGINT", "SIGQUIT", "SIGILL", "SIGTRAP", "SIGABRT", "SIGBUS", "SIGFPE", "SIGKILL",
    "SIGUSR1", "SIGSEGV", "SIGUSR2", "SIGPIPE", "SIGALRM", "SIGTERM", "SIGSTKFLT", "SIGCHLD",
    "SIGCONT", "SIGSTOP", "SIGTSTP", "SIGTTIN", "SIGTTOU", "SIGURG", "SIGXCPU", "SIGXFSZ",
    "SIGVTALRM", "SIGPROF", "SIGWINCH", "SIGIO", "SIGPWR", "SIGSYS"]

/-- A signal by its number, and by its name if it has one. -/
def signalText : Nat → String
  | 0 => "0"
  | index + 1 =>
    match signalNames[index]? with
    | some name => s!"{index + 1} ({name})"
    | none => s!"{index + 1}"

def message : ExitStatus → String
  | .exited code => s!"exit status: {code}"
  | .killed signal false => s!"signal: {signalText signal}"
  | .killed signal true => s!"signal: {signalText signal} (core dumped)"

end ExitStatus

namespace ToolStage

/-- The stages in the order in which they run. -/
def all : List ToolStage :=
  [.compile, .optimize, .reflect, .crossCompile]

def name : ToolStage → String
  | .compile => "compile"
  | .optimize => "optimize"
  | .reflect => "reflect"
  | .crossCompile => "cross-compile"

def program : ToolStage → String
  | .compile => "glslangValidator"
  | .optimize => "spirv-opt"
  | .reflect => "spirv-cross"
  | .crossCompile => "spirv-cross"

/-- The dialect whose output has to do without an extension. -/
def plainDialect : Text :=
  "410".toList

/-- The arguments of a stage: its output after an option, and its input. -/
def arguments (stage : ToolStage) (artifacts : Artifacts) (dialect : Text) : List Text :=
  match stage with
  | .compile => ["-V110".toList, "-o".toList, artifacts.compiled.text, artifacts.expanded.text]
  | .optimize => ["-O".toList, "-o".toList, artifacts.optimized.text, artifacts.compiled.text]
  | .reflect =>
    ["--reflect".toList, "json".toList, "--output".toList, artifacts.reflection.text,
      artifacts.optimized.text]
  | .crossCompile =>
    ["--output".toList, artifacts.crossCompiled.text, artifacts.optimized.text, "--version".toList,
      dialect] ++ if dialect == plainDialect then ["--no-420pack-extension".toList] else []

/-- The artifact that a stage writes. -/
def output (stage : ToolStage) (artifacts : Artifacts) : Path :=
  match stage with
  | .compile => artifacts.compiled
  | .optimize => artifacts.optimized
  | .reflect => artifacts.reflection
  | .crossCompile => artifacts.crossCompiled

/-- How a stage starts its program from the directory of tools. -/
def launch (stage : ToolStage) (tools : Path) (artifacts : Artifacts) (dialect : Text) : Launch :=
  ⟨tools.child stage.program, stage.arguments artifacts dialect⟩

end ToolStage

end ShaderBuild
