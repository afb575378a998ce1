import ShaderBuild.RunSettings
/-!
What a configuration says about a run. Everything is optional in it; the settings of a run need to
know where things are, and accept only sound values.
-/
namespace ShaderBuild

structure BuildConfig where
  commands : Option Path
  toolsDirectory : Option Path
  buildDirectory : Option Path
  sourceDirectory : Option Path
  /-- One command at a time. -/
  debug : Bool
  force : Bool
  dryRun : Bool
  jobs : Option Nat
  glProfile : Text
  cacheFileName : Text
  logLevel : Option Text
  logFile : Option Path
  deriving DecidableEq, Repr

/-- Why a configuration makes no settings. -/
inductive SettingsError where
  /-- The option that says where something is was not given. -/
  | missing (option : String)
  | noJobs
  | badProfile (profile : Text)
  | badCacheName (name : Text)
  deriving DecidableEq, Repr

def SettingsError.reason : SettingsError → String
  | .missing option => s!"{option} is required"
  | .noJobs => "jobs must be at least 1"
  | .badProfile profile => s!"gl_profile must be a single token, got '{Text.str profile}'"
  | .badCacheName name => s!"cache_file_name must be a plain file name, got '{Text.str name}'"

def SettingsError.message (problem : SettingsError) : String :=
  s!"Config validation error: {problem.reason}"

namespace BuildConfig

/-- The configuration that says nothing. -/
def empty : BuildConfig :=
  { commands := none
    toolsDirectory := none
    buildDirectory := none
    sourceDirectory := none
    debug := false
    force := false
    dryRun := false
    jobs := none
    glProfile := RunSettings.platformProfile.toList
    cacheFileName := RunSettings.cacheFileName.toList
    logLevel := none
    logFile := none }

def required (option : String) : Option Path → Except SettingsError Path
  | some path => .ok path
  | none => .error (.missing option)

/-- A name that stays in its directory: it is not empty and has no slash of either kind. -/
def isPlainName (name : Text) : Bool :=
  !name.isEmpty && !name.any fun c => c == '/' || c == '\\'

/-- Fails unless the values of a configuration are sound. -/
def check (config : BuildConfig) : Except SettingsError Unit :=
  if config.jobs = some 0 then .error .noJobs
  else if !Text.isToken config.glProfile then .error (.badProfile config.glProfile)
  else if !isPlainName config.cacheFileName then .error (.badCacheName config.cacheFileName)
  else .ok ()

/-- The settings of a run: first it is checked that everything has a place, then the values. -/
def toSettings (config : BuildConfig) : Except SettingsError RunSettings := do
  let commandList ← required "--commands" config.commands
  let toolsDirectory ← required "--tools-dir" config.toolsDirectory
  let buildDirectory ← required "--build-dir" config.buildDirectory
  let sourceDirectory ← required "--source-dir" config.sourceDirectory
  config.check
  pure {
    commandList
    toolsDirectory
    sourceDirectory
    sequential := config.debug
    force := config.force
    dryRun := config.dryRun
    workers := config.jobs
    glProfile := config.glProfile
    cachePath := buildDirectory.join ⟨config.cacheFileName⟩ }

end BuildConfig

end ShaderBuild
