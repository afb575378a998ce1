import ShaderBuild.Build.Run
import ShaderBuild.CommandLine.Build
import ShaderBuild.FileSystem.LogFile
import ShaderBuild.Program.Ending
/-!
The program that runs builds. Its log starts when the configuration is known.
-/
namespace ShaderBuild

/-- Where log entries go: to standard error, and to the log file, if there is one. -/
structure Console where
  level : Log.Level
  /-- The level up to which entries go to the log file as well. -/
  fileLevel : Option Log.Level
  /-- What was written to standard error so far. -/
  shown : Text

namespace Console

/-- The console of a program. A log file that cannot be opened is reported and done without. -/
def opened (program : String) (level : Log.Level) (logFile : Option Path) (world : World) :
    Console × World :=
  match logFile with
  | none => (⟨level, none, []⟩, world)
  | some path =>
    match world.openLog path with
    | (.ok (), world) => (⟨level, some level, []⟩, world)
    | (.error problem, world) =>
      let warning := s!"{program}: warning: cannot open log file {path}: {problem}\n"
      (⟨level, none, warning.toList⟩, world)

/-- Shows log entries, written at a time. -/
def display (console : Console) (time : Instant) (entries : List Log.Entry) : Console :=
  { console with shown := console.shown ++ Log.text console.level time entries }

end Console

namespace Program

def builder : Program :=
  ⟨"shadergen"⟩

end Program

namespace BuildRequest

/-- The first entry of every log. -/
def startEntry : Log.Entry :=
  ⟨.debug, .buildCommand, s!"{Program.builder.banner} starting"⟩

/-- Loads the saved dependencies and works on the command list. -/
def runBuild (run : Run) (console : Console) (world : World) : Ending :=
  let (result, state) := run.runList (run.start world console.fileLevel)
  let console := console.display state.world.now state.log
  match result with
  | .ok _ => ⟨0, [], console.shown, state.world, state.launches⟩
  | .error problem =>
    ⟨1, [], console.shown ++ Program.builder.failureLine problem.reasons, state.world,
      state.launches⟩

/-- Starts the log, checks the configuration and builds. -/
def runConfigured (tools : Tools) (level : Log.Level) (config : BuildConfig) (world : World) :
    Ending :=
  let (console, world) := Console.opened Program.builder.name level config.logFile world
  let console := console.display world.now [startEntry]
  let world := world.record console.fileLevel [startEntry]
  match config.toSettings with
  | .ok settings => runBuild ⟨settings, tools⟩ console world
  | .error problem =>
    ⟨1, [], console.shown ++ Program.builder.failureLine [problem.message], world, []⟩

end BuildRequest

/-- The program that builds, given its arguments and the log level in its environment. -/
def Program.build (tools : Tools) (arguments : List Text) (environment : Option Text)
    (world : World) : Ending :=
  match BuildRequest.parse arguments with
  | .error halt => builder.halt BuildRequest.switches world halt
  | .ok options =>
    match (options.configure world.files).value with
    | .error problem =>
      let reasons := "Failed to load configuration" :: problem.reasons
      ⟨1, [], builder.failureLine reasons, world, []⟩
    | .ok config =>
      let level := Log.Level.choose options.logLevel environment config.logLevel
      BuildRequest.runConfigured tools level config world

end ShaderBuild
