import ShaderBuild.Text.Blank
/-!
The tokens of YAML texts, and positions in them.
-/
namespace ShaderBuild.Yaml

/-- How a scalar is written. -/
inductive Style where
  | plain
  | quoted
  | literal
  | folded
  deriving DecidableEq, Repr

inductive Token where
  /-- A `%YAML` line with the two numbers of the version. -/
  | version (major minor : Nat)
  /-- A `%TAG` line: a handle, and the text that it stands for. -/
  | tagHandle (handle start : Text)
  | documentStart
  | documentEnd
  | blockSequenceStart
  | blockMappingStart
  | blockEnd
  | flowSequenceStart
  | flowSequenceEnd
  | flowMappingStart
  | flowMappingEnd
  | blockEntry
  | flowEntry
  | key
  | value
  | alias (name : Text)
  | anchor (name : Text)
  | tag (handle suffix : Text)
  | scalar (text : Text) (style : Style)
  deriving DecidableEq, Repr

/-- A place in a text; the index counts bytes. -/
structure Position where
  index : Nat
  line : Nat
  column : Nat
  deriving DecidableEq, Repr

/-- A space or a tab. -/
def isSpacing (c : Char) : Bool :=
  c == ' ' || c == '\t'

/-- The end of a line; other line ends were replaced by a line feed before. -/
def isBreak (c : Char) : Bool :=
  c == '\n' || c == '\u2028' || c == '\u2029'

/-- The text has no more to say on this word: it ends, or white space follows. -/
def atGap : Text → Bool
  | [] => true
  | c :: _ => isSpacing c || isBreak c

/-- The place after a character. -/
def Position.after (position : Position) (c : Char) : Position :=
  let index := position.index + c.utf8Size
  if isBreak c then ⟨index, position.line + 1, 0⟩ else ⟨index, position.line, position.column + 1⟩

/-- A text to be read on, and where it starts. -/
structure Cursor where
  position : Position
  rest : Text
  deriving DecidableEq, Repr

namespace Cursor

/-- The cursor after one character. -/
def next (cursor : Cursor) : Cursor :=
  match cursor.rest with
  | [] => cursor
  | c :: rest => ⟨cursor.position.after c, rest⟩

/-- The cursor after a number of characters. -/
def skip (cursor : Cursor) : Nat → Cursor
  | 0 => cursor
  | count + 1 => cursor.next.skip count

@[simp] theorem rest_next (cursor : Cursor) : cursor.next.rest = cursor.rest.drop 1 := by
  unfold next
  split <;> simp [*]

@[simp] theorem rest_skip (cursor : Cursor) (count : Nat) :
    (cursor.skip count).rest = cursor.rest.drop count := by
  induction count generalizing cursor with
  | zero => simp [skip]
  | succ count ih => simp [skip, ih]

def head? (cursor : Cursor) : Option Char :=
  cursor.rest.head?

/-- The text continues with `start`. -/
def startsWith (cursor : Cursor) (start : String) : Bool :=
  start.toList.isPrefixOf cursor.rest

/-- A line that starts with `---` or `...` and nothing joined to it separates documents. -/
def atDocumentMark (cursor : Cursor) : Bool :=
  cursor.position.column == 0 && (cursor.startsWith "---" || cursor.startsWith "...")
    && atGap (cursor.rest.drop 3)

/-- The characters up to the first that is not accepted, and the cursor there. -/
def takeWhile (accept : Char → Bool) (cursor : Cursor) : Text × Cursor :=
  let taken := cursor.rest.takeWhile accept
  (taken, cursor.skip taken.length)

/-- Skips spaces and tabs. -/
def skipSpacing (cursor : Cursor) : Cursor :=
  (cursor.takeWhile isSpacing).2

/-- Skips a comment, if one starts here. -/
def skipComment (cursor : Cursor) : Cursor :=
  if cursor.head? == some '#' then (cursor.takeWhile fun c => !isBreak c).2 else cursor

/-- Skips spacing and a comment, after which the line has to end. -/
def endLine? (cursor : Cursor) : Option Cursor :=
  let cursor := cursor.skipSpacing.skipComment
  match cursor.rest with
  | [] => some cursor
  | c :: _ => if isBreak c then some cursor.next else none

end Cursor

/-- The character may stand in a YAML text. -/
def isAllowed (c : Char) : Bool :=
  let code := c.toNat
  code == 0x09 || code == 0x0A || code == 0x0D || (0x20 ≤ code && code ≤ 0x7E) || code == 0x85
    || (0xA0 ≤ code && code ≤ 0xD7FF) || (0xE000 ≤ code && code ≤ 0xFFFD) || 0x10000 ≤ code

/-- Every line end that is a carriage return, with or without a line feed, or a next-line character
becomes a line feed. -/
def normalizeBreaks : Text → Text
  | [] => []
  | '\r' :: '\n' :: rest => '\n' :: normalizeBreaks rest
  | c :: rest => (if c == '\r' || c == '\u0085' then '\n' else c) :: normalizeBreaks rest

end ShaderBuild.Yaml
