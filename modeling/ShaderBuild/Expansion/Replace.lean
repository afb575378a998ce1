import ShaderBuild.Expansion.Basic
/-!
Replacing the markers of a text one by one. All that is not replaced stays as it is.
-/
namespace ShaderBuild

/-- The text of the pieces, each marker replaced by what `act` gives for it. Markers are visited in
order, and none after one on which `act` fails. -/
def replacePieces {m : Type → Type} [Monad m] (notice : Piece → m Unit)
    (act : Marker → m (Option Text)) : List Piece → m Text
  | [] => pure []
  | piece :: rest => do
    notice piece
    let first ←
      match piece with
      | .marker found => do
        let replacement ← act found
        pure (replacement.getD found.text)
      | other => pure other.text
    let others ← replacePieces notice act rest
    pure (first ++ others)

/-- The text with every marker replaced for which `replace` gives a text. -/
def replaceMarkers (replace : Directive → Option Text) (text : Text) : Logged Text :=
  replacePieces Piece.notice (fun found => pure (replace found.directive)) (scan text)

/-- Removes the comment blocks. -/
def dropComments : Text → Logged Text :=
  replaceMarkers fun directive => if directive = .comment then some [] else none

/-- Writes conditionals and plain definitions as native directives. -/
def nativeConditionals : Text → Logged Text :=
  replaceMarkers Directive.native?

/-- Fails if the text holds an opener, closed or not. -/
def checkLeftovers (path : Path) (text : Text) : Except ExpansionError Unit :=
  match firstOpener? 0 text with
  | none => .ok ()
  | some (offset, rest) =>
    .error (.unconsumedDirective path offset (Excerpt.leftover rest) (Excerpt.around text offset))

end ShaderBuild
