import ShaderBuild.Config.Basic
import ShaderBuild.FileSystem.Access
import ShaderBuild.Log
import ShaderBuild.Yaml.Value
/-!
Configurations as YAML documents: a mapping of the known fields, each at most once, and of any
others, which mean nothing. A configuration is read from its file.
-/
namespace ShaderBuild

namespace BuildConfig

def optionalPath? (node : Yaml.Node) : Option (Option Path) :=
  node.optional? fun node => node.asText?.map Path.mk

/-- The configuration with the field of that name set; other fields are passed over. -/
def set? (config : BuildConfig) (name : Text) (value : Yaml.Node) : Option BuildConfig :=
  match Text.str name with
  | "commands" => (optionalPath? value).map fun path => { config with commands := path }
  | "tools_dir" => (optionalPath? value).map fun path => { config with toolsDirectory := path }
  | "build_dir" => (optionalPath? value).map fun path => { config with buildDirectory := path }
  | "source_dir" => (optionalPath? value).map fun path => { config with sourceDirectory := path }
  | "debug" => value.asBool?.map fun flag => { config with debug := flag }
  | "force" => value.asBool?.map fun flag => { config with force := flag }
  | "dry_run" => value.asBool?.map fun flag => { config with dryRun := flag }
  | "jobs" => (value.optional? Yaml.Node.asNat?).map fun jobs => { config with jobs := jobs }
  | "gl_profile" => value.asText?.map fun profile => { config with glProfile := profile }
  | "cache_file_name" => value.asText?.map fun name => { config with cacheFileName := name }
  | "log_level" =>
    (value.optional? Yaml.Node.asText?).map fun level => { config with logLevel := level }
  | "log_file" => (optionalPath? value).map fun path => { config with logFile := path }
  | _ => some config

/-- The names of the fields that mean something. -/
def fieldNames : List String :=
  ["commands", "tools_dir", "build_dir", "source_dir", "debug", "force", "dry_run", "jobs",
    "gl_profile", "cache_file_name", "log_level", "log_file"]

/-- The fields of a mapping of the document `root`, each with its name, if no known name occurs
twice. -/
def namedFields? (root : Yaml.Node) (fields : List (Yaml.Node × Yaml.Node)) :
    Option (List (Text × Yaml.Node)) := do
  let named ← fields.mapM fun (key, value) =>
    (root.meant key).asText?.map fun name => (name, root.meant value)
  if fieldNames.all fun name => named.countP (fun field => field.1 == name.toList) ≤ 1 then
    some named
  else none

/-- The configuration that a document describes. An empty document describes the empty one. -/
def ofDocument? (root : Yaml.Node) : Option BuildConfig :=
  match root.meant root with
  | .mapping fields => do
    let named ← namedFields? root fields
    named.foldlM (fun config field => config.set? field.1 field.2) empty
  | .scalar [] .plain _ => some empty
  | _ => none

/-- Reads a configuration; a blank text is the empty one. -/
def parse? (text : Text) : Option BuildConfig :=
  if (Text.trim text).isEmpty then some empty
  else
    match Yaml.Node.parse? text with
    | none => none
    | some none => some empty
    | some (some root) => ofDocument? root

end BuildConfig

inductive ConfigError where
  | unreadable (path : Path) (problem : FileError)
  | malformed (path : Path)
  deriving DecidableEq, Repr

def ConfigError.message : ConfigError → String
  | .unreadable path problem => s!"I/O error reading config '{path}': {problem}"
  | .malformed path => s!"YAML parse error in config '{path}': not a configuration"

def BuildConfig.load (files : FileSystem) (path : Path) :
    Logged (Except ConfigError BuildConfig) :=
  match files.readText path with
  | .error problem => pure (.error (.unreadable path problem))
  | .ok text => do
    Logged.note .debug .configuration s!"Loading config from {path}"
    match BuildConfig.parse? text with
    | some config => pure (.ok config)
    | none => pure (.error (.malformed path))

end ShaderBuild
