import ShaderBuild.CommandLine.Grammar
import ShaderBuild.Expansion.Source
/-!
The command line of the program that expands one template, and what it asks for.
-/
namespace ShaderBuild

structure ExpandRequest where
  input : Option Path
  output : Option Path
  /-- Names and values of macros. -/
  defines : List (Text × Text)
  stage : Option ShaderStage
  searchRoots : List Path
  headers : List Path
  /-- The dependencies are listed instead of expanding. -/
  listDependencies : Bool
  deriving DecidableEq, Repr

namespace ExpandRequest

open CommandLine

/-- The options of an empty command line. -/
def empty : ExpandRequest :=
  ⟨none, none, [], none, [], [], false⟩

/-- Adds a macro from its name and its value. -/
def addDefine (values : List Text) (options : ExpandRequest) : Except Halt ExpandRequest :=
  match values with
  | [name, value] => .ok { options with defines := options.defines ++ [(name, value)] }
  | _ => .error (.misuse .wrongNumberOfValues)

def switches : List (Switch ExpandRequest) :=
  [.single "input" (some 'i') readPath fun path options => { options with input := some ⟨path⟩ },
    .single "output" (some 'o') readPath fun path options => { options with output := some ⟨path⟩ },
    ⟨["define"], some 'D', 2, true, addDefine⟩,
    .single "type" (some 'T') (readChoice ShaderStage.ofShortName?) fun stage options =>
      { options with stage := some stage },
    (Switch.single "include" (some 'I') readPath fun path options =>
      { options with searchRoots := options.searchRoots ++ [⟨path⟩] }).again,
    (Switch.single "header" (some 'H') readPath fun path options =>
      { options with headers := options.headers ++ [⟨path⟩] }).again,
    .flag "list-dependencies" (some 'M') fun options => { options with listDependencies := true }]
  ++ Switch.common

/-- Reads a command line. Dependencies can only be listed for a given input. -/
def parse (arguments : List Text) : Except Halt ExpandRequest := do
  let options ← CommandLine.parse switches empty arguments
  if options.listDependencies && options.input.isNone then throw (.misuse .missingArgument)
  pure options

/-- The stage that is asked for; else that of the input's extension; else the vertex stage. -/
def stageFor (options : ExpandRequest) : ShaderStage :=
  (options.stage.or (options.input.bind ShaderStage.ofPath?)).getD .vertex

/-- The name under which standard input is expanded. -/
def standardInput : Path :=
  Path.of "<stdin>"

/-- The text of standard input. -/
def readStandardInput : Contents → Except ExpansionError Text
  | .text text => .ok text
  | .binary _ => .error (.unreadable standardInput .notUtf8)

/-- The template to expand: that of the input file, or of standard input. -/
def source (options : ExpandRequest) (files : FileSystem) (input : Contents) :
    Expanding Source :=
  match options.input with
  | some path => do
    let text ← Expanding.readText path
    pure ⟨files.absolute path, text, options.stageFor⟩
  | none => do
    let text ← Expanding.ofExcept (readStandardInput input)
    pure ⟨standardInput, text, options.stageFor⟩

/-- One path on each line. -/
def listing (paths : List Path) : Text :=
  paths.flatMap fun path => path.text ++ ['\n']

/-- The text that is asked for: the expanded template, or a list of dependencies. -/
def run (options : ExpandRequest) (files : FileSystem) (input : Contents) : Expanding Text :=
  let search : SearchPath := ⟨options.searchRoots⟩
  match options.listDependencies, options.input with
  | true, some path => do
    let set ← discover files search path options.headers
    pure (listing set.paths)
  | _, _ => do
    let source ← options.source files input
    let expansion ← source.expand files search ⟨options.headers, options.defines⟩
    Expanding.note .debug .expandCommand
      s!"Expanded {source.path} with {expansion.dependencies.paths.length} dependencies"
    pure expansion.text

end ExpandRequest

end ShaderBuild
