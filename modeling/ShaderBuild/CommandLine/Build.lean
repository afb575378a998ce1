import ShaderBuild.CommandLine.Grammar
import ShaderBuild.Config.Document
/-!
The command line of the program that runs builds. What it says goes before what the configuration
file says.
-/
namespace ShaderBuild

structure BuildRequest where
  commands : Option Path
  toolsDirectory : Option Path
  buildDirectory : Option Path
  sourceDirectory : Option Path
  debug : Bool
  force : Bool
  dryRun : Bool
  jobs : Option Nat
  glProfile : Option Text
  /-- The configuration file. -/
  config : Option Path
  logLevel : Option Log.Level
  logFile : Option Path
  deriving DecidableEq, Repr

namespace BuildRequest

open CommandLine

/-- The options of an empty command line. -/
def empty : BuildRequest :=
  ⟨none, none, none, none, false, false, false, none, none, none, none, none⟩

def switches : List (Switch BuildRequest) :=
  [.single "commands" none readPath fun path options => { options with commands := some ⟨path⟩ },
    (Switch.single "tools-dir" none readPath fun path options =>
      { options with toolsDirectory := some ⟨path⟩ }).orNamed "spirv-binaries",
    .single "build-dir" none readPath fun path options =>
      { options with buildDirectory := some ⟨path⟩ },
    .single "source-dir" none readPath fun path options =>
      { options with sourceDirectory := some ⟨path⟩ },
    .flag "debug" (some 'd') fun options => { options with debug := true },
    .flag "force" (some 'f') fun options => { options with force := true },
    .flag "dry-run" (some 'n') fun options => { options with dryRun := true },
    .single "jobs" (some 'j') readNumber fun jobs options => { options with jobs := some jobs },
    .single "gl-profile" none readAny fun profile options =>
      { options with glProfile := some profile },
    .single "config" none readPath fun path options => { options with config := some ⟨path⟩ },
    .single "log-level" none (readChoice Log.Level.ofName?) fun level options =>
      { options with logLevel := some level },
    .single "log-file" none readPath fun path options =>
      { options with logFile := some ⟨path⟩ }]
  ++ Switch.common

/-- Reads a command line. -/
def parse (arguments : List Text) : Except Halt BuildRequest :=
  CommandLine.parse switches empty arguments

/-- The configuration with everything replaced that the command line gives. A flag can only be
switched on. -/
def apply (options : BuildRequest) (config : BuildConfig) : BuildConfig :=
  { config with
    commands := options.commands.or config.commands
    toolsDirectory := options.toolsDirectory.or config.toolsDirectory
    buildDirectory := options.buildDirectory.or config.buildDirectory
    sourceDirectory := options.sourceDirectory.or config.sourceDirectory
    debug := config.debug || options.debug
    force := config.force || options.force
    dryRun := config.dryRun || options.dryRun
    jobs := options.jobs.or config.jobs
    glProfile := options.glProfile.getD config.glProfile
    logFile := options.logFile.or config.logFile }

/-- The configuration of a run: that of the configuration file, if one is given, with the command
line on top. -/
def configure (options : BuildRequest) (files : FileSystem) :
    Logged (Except ConfigError BuildConfig) :=
  match options.config with
  | none => pure (.ok (options.apply BuildConfig.empty))
  | some path => do
    let loaded ← BuildConfig.load files path
    pure (loaded.map options.apply)

end BuildRequest

end ShaderBuild
