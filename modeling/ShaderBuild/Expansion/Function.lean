import ShaderBuild.Expansion.Basic
/-!
Function blocks. A block becomes one `#define` whose lines are continued by backslashes; an end
closes the innermost open block, so inner blocks are rendered before the block around them.
-/
namespace ShaderBuild

/-- A block whose end was not met yet; its body is kept in reverse. -/
structure OpenBlock where
  header : Text
  offset : Nat
  body : Text
  deriving DecidableEq, Repr

/-- The macro definition that stands for a block. -/
def macroText (header body : Text) : Text :=
  "#define ".toList ++ header ++ " \\\n".toList ++ Text.joinWith " \\\n".toList (Text.lines body)

/-- The blocks open at some point of a text, innermost first, and the reverse of what was written
outside of all blocks before it. -/
structure Blocks where
  opened : List OpenBlock
  output : Text
  closed : Nat
  deriving DecidableEq, Repr

namespace Blocks

def empty : Blocks :=
  ⟨[], [], 0⟩

/-- Adds text to the innermost open block, or to the output. -/
def push (blocks : Blocks) (text : Text) : Blocks :=
  match blocks.opened with
  | [] => { blocks with output := text.reverse ++ blocks.output }
  | block :: outer =>
    { blocks with opened := { block with body := text.reverse ++ block.body } :: outer }

/-- Takes in one piece of the text. -/
def feed (path : Path) (text : Text) (blocks : Blocks) (piece : Piece) :
    Except ExpansionError Blocks :=
  match piece with
  | .stray _ => .ok blocks
  | .char c => .ok (blocks.push [c])
  | .marker found =>
    match found.directive with
    | .functionBegin header =>
      .ok { blocks with opened := ⟨header.text, found.start, []⟩ :: blocks.opened }
    | .functionEnd =>
      match blocks.opened with
      | [] => .error (.unbalancedEnd path found.start (Excerpt.around text found.start))
      | block :: outer =>
        let inner := macroText block.header block.body.reverse
        .ok ({ blocks with opened := outer, closed := blocks.closed + 1 }.push inner)
    | _ => .ok (blocks.push found.text)

/-- Notices the piece, then takes it in. -/
def read (path : Path) (text : Text) (blocks : Blocks) (piece : Piece) : TextPass Blocks := do
  ExceptT.lift piece.notice
  TextPass.ofExcept (blocks.feed path text piece)

/-- The text with all blocks rendered; none may be open any more. -/
def finish (path : Path) (blocks : Blocks) : Except ExpansionError Text :=
  match blocks.opened with
  | [] => .ok blocks.output.reverse
  | block :: _ => .error (.unterminatedFunction path block.header block.offset)

end Blocks

/-- Renders the function blocks of a text. -/
def defineBlocks (path : Path) (text : Text) : TextPass Text := do
  let blocks ← (scan text).foldlM (Blocks.read path text) Blocks.empty
  let output ← TextPass.ofExcept (blocks.finish path)
  if blocks.closed > 0 then
    let message := s!"Expanded {blocks.closed} function block(s) in {path}"
    ExceptT.lift (Logged.note .trace .expansion message)
  pure output

end ShaderBuild
