import ShaderBuild.Path.Basic
/-!
Build commands: one template, compiled for one dialect and one variant.
-/
namespace ShaderBuild

/-- Which of the two kinds of output a command makes. -/
inductive Variant where
  | mono
  | stereo
  deriving DecidableEq, Repr

namespace Variant

def name : Variant → String
  | .mono => "mono"
  | .stereo => "stereo"

def ofName? (name : Text) : Option Variant :=
  [mono, stereo].find? fun variant => variant.name.toList == name

/-- The place of a variant among the variants. -/
def rank : Variant → Nat
  | .mono => 0
  | .stereo => 1

/-- What is said of a text that is the name of no variant. -/
def unknownMessage (name : Text) : String :=
  s!"unknown variant '{Text.str name}' (expected mono or stereo)"

end Variant

/-- One command; its paths are relative to the source root. -/
structure ShaderCommand where
  dialect : Text
  variant : Variant
  source : Path
  /-- All outputs of the command begin with this path. -/
  outputBase : Path
  libraries : List Text
  deriving DecidableEq, Repr

/-- The command in log entries and reports. -/
def ShaderCommand.describe (command : ShaderCommand) : String :=
  s!"{command.source} dialect {Text.str command.dialect} variant {command.variant.name}"

end ShaderBuild
