import ShaderBuild.Directive.Scan
import ShaderBuild.FileSystem.Basic
import ShaderBuild.Text.Lines
/-!
Why an expansion fails, and the excerpts of the text that its messages show.
-/
namespace ShaderBuild

namespace Excerpt

/-- How many bytes are shown on each side of an offset. -/
def radius : Nat := 80

/-- The characters of a text starting at `position` of which a byte lies above `low` and one below
`high`. -/
def within (position low high : Nat) : Text → Text
  | [] => []
  | c :: rest =>
    let next := position + c.utf8Size
    if low < next ∧ position < high then c :: within next low high rest
    else within next low high rest

/-- The surroundings of an offset, widened to whole characters. -/
def around (text : Text) (offset : Nat) : Text :=
  within 0 (offset - radius) (offset + radius) text

/-- What is left over at an opener: a closed directive as a whole, else the rest of the line. -/
def leftover (rest : Text) : Text :=
  match rest with
  | '<' :: '@' :: after =>
    match Scan.closing? '@' after with
    | some body => '<' :: '@' :: body ++ ['@', '>']
    | none => (Text.lines rest).head?.getD rest
  | _ => (Text.lines rest).head?.getD rest

end Excerpt

inductive ExpansionError where
  /-- An `endfunc` closes no block. -/
  | unbalancedEnd (path : Path) (offset : Nat) (excerpt : Text)
  /-- A block is open at the end of the text. -/
  | unterminatedFunction (path : Path) (header : Text) (offset : Nat)
  /-- An opener is left over when all markers are replaced. -/
  | unconsumedDirective (path : Path) (offset : Nat) (fragment excerpt : Text)
  | unresolvedInclude (path : Path) (name : Text) (searched : List Path)
  | unknownStage (path : Path)
  | unreadable (path : Path) (problem : FileError)
  deriving DecidableEq, Repr

/-- The searched directories, as a message lists them. -/
def ExpansionError.listRoots (roots : List Path) : String :=
  if roots.isEmpty then "<no search roots>" else ", ".intercalate (roots.map toString)

open Text in
def ExpansionError.message : ExpansionError → String
  | .unbalancedEnd path offset excerpt =>
    s!"Unbalanced <@endfunc@> in '{path}' at byte {offset}: {str excerpt}"
  | .unterminatedFunction path header offset =>
    s!"Unterminated <@func {str header}@> in '{path}' at byte {offset}"
  | .unconsumedDirective path offset fragment excerpt =>
    s!"Unconsumed directive '{str fragment}' in '{path}' at byte {offset}:\n{str excerpt}"
  | .unresolvedInclude path name searched =>
    s!"Unresolved include '{str name}' in '{path}' (searched: {listRoots searched})"
  | .unknownStage path => s!"Unknown scribe file type for '{path}'"
  | .unreadable path problem => s!"Failed to read '{path}': {problem}"

end ShaderBuild
