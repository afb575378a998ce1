import ShaderBuild.Directive.Grammar
import ShaderBuild.Text.Utf8
/-!
Finding the markers of a text. A marker runs from `<@` to the first `@>` after it, or from `<!` to
the first `!>`; an opener without a closer is skipped and noted.
-/
namespace ShaderBuild

/-- A marker: where it starts in bytes, its whole text, and what it says. -/
structure Marker where
  start : Nat
  text : Text
  directive : Directive
  deriving DecidableEq, Repr

/-- Where the marker ends in bytes. -/
def Marker.stop (marker : Marker) : Nat :=
  marker.start + Text.byteLength marker.text

/-- What a scan meets, in order. -/
inductive Piece where
  /-- A character outside every marker. -/
  | char (c : Char)
  | marker (found : Marker)
  /-- An opener without a closer starts here; its two characters follow. -/
  | stray (offset : Nat)
  deriving DecidableEq, Repr

namespace Piece

/-- The part of the scanned text that the piece stands for. -/
def text : Piece → Text
  | .char c => [c]
  | .marker found => found.text
  | .stray _ => []

/-- The marker, if the piece is one. -/
def marker? : Piece → Option Marker
  | .marker found => some found
  | _ => none

end Piece

namespace Scan

/-- The second character of an opener, and the text after the opener. -/
def opener? : Text → Option (Char × Text)
  | '<' :: c :: rest => if c = '@' ∨ c = '!' then some (c, rest) else none
  | _ => none

/-- The text before the first closer with the given first character. -/
def closing? (mark : Char) : Text → Option Text
  | a :: b :: rest =>
    if a = mark ∧ b = '>' then some []
    else (closing? mark (b :: rest)).map (a :: ·)
  | _ => none

/-- What a marker says: one with an exclamation mark is a comment. -/
def directive (mark : Char) (body : Text) : Directive :=
  if mark = '!' then .comment else Directive.parse body

/-- The pieces of a text that starts at `offset`, the first `skip` characters belonging to what was
already reported. -/
def pieces (offset skip : Nat) : Text → List Piece
  | [] => []
  | c :: rest =>
    match skip with
    | skip + 1 => pieces (offset + c.utf8Size) skip rest
    | 0 =>
      match opener? (c :: rest) with
      | none => .char c :: pieces (offset + c.utf8Size) 0 rest
      | some (mark, after) =>
        match closing? mark after with
        | none => .stray offset :: .char c :: .char mark :: pieces (offset + c.utf8Size) 1 rest
        | some body =>
          .marker ⟨offset, c :: mark :: body ++ [mark, '>'], directive mark body⟩
            :: pieces (offset + c.utf8Size) (body.length + 3) rest

end Scan

/-- The pieces of a text. -/
def scan (text : Text) : List Piece :=
  Scan.pieces 0 0 text

/-- The markers of a text, in order. -/
def markers (text : Text) : List Marker :=
  (scan text).filterMap Piece.marker?

/-- The first opener in the text, closed or not: its offset, and the text from there on. -/
def firstOpener? (offset : Nat) : Text → Option (Nat × Text)
  | [] => none
  | c :: rest =>
    if (Scan.opener? (c :: rest)).isSome then some (offset, c :: rest)
    else firstOpener? (offset + c.utf8Size) rest

/-- The offset of the first opener in the text. -/
def leftover? (text : Text) : Option Nat :=
  (firstOpener? 0 text).map Prod.fst

end ShaderBuild
