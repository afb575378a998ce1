import ShaderBuild.Text.Blank
/-!
Cutting a text at a separator, and into lines.
-/
namespace ShaderBuild.Text

/-- The pieces between the occurrences of `separator`; there is always at least one. -/
def splitOn (separator : Char) : Text → List Text
  | [] => [[]]
  | c :: rest =>
    if c = separator then [] :: splitOn separator rest
    else
      match splitOn separator rest with
      | [] => [[c]]
      | piece :: pieces => (c :: piece) :: pieces

/-- A line without the one carriage return that may stand before its line feed. -/
def dropReturn (line : Text) : Text :=
  if line.getLast? = some '\r' then line.dropLast else line

/-- Every piece but the last was closed by a line feed; an empty last piece is no line. -/
def closeLines : List Text → List Text
  | [] => []
  | [last] => if last.isEmpty then [] else [last]
  | line :: next :: rest => dropReturn line :: closeLines (next :: rest)

/-- The lines of a text, without their ends: a line feed, or a carriage return and a line feed. -/
def lines (text : Text) : List Text :=
  closeLines (splitOn '\n' text)

/-- The pieces with `separator` between each two of them. -/
def joinWith (separator : Text) (pieces : List Text) : Text :=
  separator.intercalate pieces

end ShaderBuild.Text
