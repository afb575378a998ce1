import ShaderBuild.Command.Basic
/-!
Command lists: one command a line, its fields separated by semicolons. Blank lines and lines that
begin with `#` are no commands; the first line that is wrong makes the whole list wrong.
-/
namespace ShaderBuild

/-- The fields that every command has. -/
inductive CommandField where
  | dialect
  | variant
  | source
  | output
  deriving DecidableEq, Repr

namespace CommandField

def name : CommandField → String
  | .dialect => "dialect"
  | .variant => "variant"
  | .source => "source"
  | .output => "output"

/-- The place of the field in its line. -/
def index : CommandField → Nat
  | .dialect => 0
  | .variant => 1
  | .source => 2
  | .output => 3

end CommandField

/-- What is wrong with the line of a command. -/
inductive CommandProblem where
  | missing (field : CommandField)
  | unknownVariant (name : Text)
  deriving DecidableEq, Repr

def CommandProblem.message : CommandProblem → String
  | .missing field => s!"missing {field.name} field"
  | .unknownVariant name => Variant.unknownMessage name

/-- A line that is no command. -/
structure CommandLineError where
  number : Nat
  line : Text
  problem : CommandProblem
  deriving DecidableEq, Repr

def CommandLineError.message (failure : CommandLineError) : String :=
  s!"Invalid build command on line {failure.number} ('{Text.str failure.line}'): "
    ++ failure.problem.message

namespace ShaderCommand

/-- The fields of a line, without the white space around them. -/
def fields (line : Text) : List Text :=
  (Text.splitOn ';' (Text.trim line)).map Text.trim

/-- A field that has to be there and not be empty. -/
def required (fields : List Text) (field : CommandField) : Except CommandProblem Text :=
  match fields[field.index]? with
  | some value => if value.isEmpty then .error (.missing field) else .ok value
  | none => .error (.missing field)

/-- Reads one line; all fields from the fifth on that are not empty are libraries. -/
def ofFields (fields : List Text) : Except CommandProblem ShaderCommand := do
  let dialect ← required fields .dialect
  let name ← required fields .variant
  let variant ←
    match Variant.ofName? name with
    | some variant => pure variant
    | none => throw (.unknownVariant name)
  let source ← required fields .source
  let output ← required fields .output
  pure ⟨dialect, variant, ⟨source⟩, ⟨output⟩, (fields.drop 4).filter fun field => !field.isEmpty⟩

/-- Reads the line with the given number. -/
def parse (line : Text) (number : Nat) : Except CommandLineError ShaderCommand :=
  match ofFields (fields line) with
  | .ok command => .ok command
  | .error problem => .error ⟨number, line, problem⟩

/-- The line holds a command. -/
def isCommandLine (line : Text) : Bool :=
  let line := Text.trim line
  !line.isEmpty && line.head? != some '#'

/-- Reads a whole list; lines are numbered from one. -/
def parseList (text : Text) : Except CommandLineError (List ShaderCommand) :=
  (((Text.lines text).zipIdx 1).filter fun numbered => isCommandLine numbered.1).mapM
    fun numbered => parse numbered.1 numbered.2

end ShaderCommand

end ShaderBuild
