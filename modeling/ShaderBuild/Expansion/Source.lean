import ShaderBuild.Expansion.Function
import ShaderBuild.Expansion.Include
import ShaderBuild.ShaderStage
/-!
Expanding one source: function blocks, comments, conditionals and includes are replaced in turn,
what is left is checked, and headers and definitions are put in front. Listing the dependencies of a
source follows its includes alone.
-/
namespace ShaderBuild

/-- A template to expand. -/
structure Source where
  path : Path
  text : Text
  stage : ShaderStage
  deriving DecidableEq, Repr

/-- What an expansion puts in front of the text. -/
structure Preamble where
  headers : List Path
  /-- Names and values of macros. -/
  defines : List (Text × Text)
  deriving DecidableEq, Repr

structure Expanded where
  text : Text
  /-- The files included, then the source, then the headers. -/
  dependencies : PathSet
  deriving DecidableEq, Repr

namespace Source

/-- A source whose stage is that of its extension. -/
def ofText (path : Path) (text : Text) : Except ExpansionError Source :=
  match ShaderStage.ofPath? path with
  | some stage => .ok ⟨path, text, stage⟩
  | none => .error (.unknownStage path)

/-- Reads a source whose stage is that of its extension. -/
def read (files : FileSystem) (path : Path) : Expanding Source :=
  match ShaderStage.ofPath? path with
  | some stage => do
    let text ← Expanding.readText path
    pure ⟨files.absolute path, text, stage⟩
  | none => .ofExcept (.error (.unknownStage path))

end Source

/-- The line that defines a macro, with its value unless that is empty. -/
def defineLine (name value : Text) : Text :=
  "#define ".toList ++ (if value.isEmpty then name else name ++ ' ' :: value)

/-- What goes in front of the body, given the texts of the headers. -/
def Preamble.sections (preamble : Preamble) (stage : ShaderStage) (headers : List Text) :
    List Text :=
  headers ++ defineLine stage.macroName.toList []
    :: preamble.defines.map fun define => defineLine define.1 define.2

/-- The dependencies of a source: the files it includes, then itself, then the headers. -/
def PathSet.withSource (included : PathSet) (files : FileSystem) (source : Path)
    (headers : List Path) : PathSet :=
  (included.insert (files.absolute source)).extend (headers.map files.absolute)

/-- The body of an expansion: the text with every marker replaced, and the files that it
includes. -/
def Source.body (source : Source) (files : FileSystem) (search : SearchPath) :
    Expanding (Text × PathSet) := do
  let text ← liftM (defineBlocks source.path source.text)
  let text ← liftM (dropComments text)
  let text ← liftM (nativeConditionals text)
  let (text, included) ← nativeIncludes files search source.path text
  Expanding.ofExcept (checkLeftovers source.path text)
  pure (text, included)

/-- Expands a source: headers and definitions go in front of its body. -/
def Source.expand (source : Source) (files : FileSystem) (search : SearchPath)
    (preamble : Preamble) : Expanding Expanded := do
  Expanding.note .debug .expansion s!"Expanding {source.path} ({source.stage.shortName})"
  let (text, included) ← source.body files search
  let headers ← preamble.headers.mapM Expanding.readText
  pure {
    text := Text.joinWith ['\n'] (preamble.sections source.stage headers ++ [text])
    dependencies := included.withSource files source.path preamble.headers }

/-- Lists the files that a source depends on without expanding it. -/
def discover (files : FileSystem) (search : SearchPath) (source : Path) (headers : List Path) :
    Expanding PathSet := do
  let text ← Expanding.readText source
  let included ← Include.collect files search source text
  let set := included.withSource files source headers
  Expanding.note .trace .expansion s!"Discovered {set.paths.length} dependencies for {source}"
  pure set

end ShaderBuild
