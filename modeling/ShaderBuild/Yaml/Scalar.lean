import ShaderBuild.Text.Number
import ShaderBuild.Yaml.Token
/-!
Reading scalars. Line breaks inside a scalar are folded: one becomes a space, of several the first
is dropped; a literal block keeps them.
-/
namespace ShaderBuild.Yaml

/-- The white space met since the last character of a scalar. -/
structure Gap where
  /-- Spaces and tabs, as long as no line ended. -/
  spacing : Text
  /-- The first line break. -/
  first : Option Char
  /-- The line breaks after the first. -/
  later : Text
  /-- A line ended. -/
  broken : Bool
  deriving DecidableEq, Repr

namespace Gap

def empty : Gap :=
  ⟨[], none, [], false⟩

/-- The gap after a line break that an escape hides. -/
def hidden : Gap :=
  ⟨[], none, [], true⟩

/-- The gap and one more character of white space. -/
def add (gap : Gap) (c : Char) : Gap :=
  if isBreak c then
    if gap.broken then { gap with later := gap.later ++ [c] } else ⟨[], some c, [], true⟩
  else if gap.broken then gap
  else { gap with spacing := gap.spacing ++ [c] }

/-- The text that the gap stands for between two characters of a scalar. -/
def folded (gap : Gap) : Text :=
  if gap.broken then
    match gap.first with
    | some '\n' => if gap.later.isEmpty then [' '] else gap.later
    | some c => c :: gap.later
    | none => gap.later
  else gap.spacing

end Gap

/-- Signs that have a meaning inside brackets and braces. -/
def flowSigns : List Char :=
  [',', '[', ']', '\x7b', '\x7d']

/-- A plain scalar ends before `c` and `rest`, wherever they stand in it. -/
def endsPlain (inFlow : Bool) (c : Char) (rest : Text) : Bool :=
  (c == ':' && atGap rest) || (inFlow && c ∈ flowSigns)

/-- Reads a plain scalar, whose lines but the first start at column `indent` or later; `read` is
what was read of it, the last character first. Gives its text, the cursor after it, and whether it
ended with a line. -/
def readPlain? (inFlow : Bool) (indent : Int) (read : Text) (gap : Gap) (position : Position) :
    Text → Option (Text × Cursor × Bool)
  | [] => some (read.reverse, ⟨position, []⟩, gap.broken)
  | c :: rest =>
    if isSpacing c then
      if gap.broken && position.column < indent && c == '\t' then none
      else readPlain? inFlow indent read (gap.add c) (position.after c) rest
    else if isBreak c then readPlain? inFlow indent read (gap.add c) (position.after c) rest
    else
      let here : Cursor := ⟨position, c :: rest⟩
      let fresh := read.isEmpty || gap.broken || !gap.spacing.isEmpty
      let outdented := !inFlow && !read.isEmpty && position.column < indent
      if (fresh && (outdented || here.atDocumentMark || c == '#')) || endsPlain inFlow c rest then
        some (read.reverse, here, gap.broken)
      else if inFlow && c == ':' && rest.head?.any (· ∈ '?' :: flowSigns) then none
      else
        let read := c :: gap.folded.reverse ++ read
        readPlain? inFlow indent read Gap.empty (position.after c) rest

/-- The character that an escape in double quotes stands for, and its length without the backslash.
-/
def escape? : Text → Option (Char × Nat)
  | [] => none
  | c :: rest =>
    match [('0', 0x00), ('a', 0x07), ('b', 0x08), ('t', 0x09), ('\t', 0x09), ('n', 0x0A),
        ('v', 0x0B), ('f', 0x0C), ('r', 0x0D), ('e', 0x1B), (' ', 0x20), ('"', 0x22), ('/', 0x2F),
        ('\\', 0x5C), ('N', 0x85), ('_', 0xA0), ('L', 0x2028), ('P', 0x2029)].lookup c with
    | some code => some (Char.ofNat code, 1)
    | none => do
      let count ← [('x', 2), ('u', 4), ('U', 8)].lookup c
      let digits := rest.take count
      let code ← if digits.length = count then Text.digits? 16 digits else none
      if (0xD800 ≤ code && code ≤ 0xDFFF) || 0x10FFFF < code then none
      else pure (Char.ofNat code, count + 1)

/-- Reads a quoted scalar after its first quote; `read` is what was read of it, the last character
first. Gives its text, and the cursor after the last quote. -/
def readQuoted? (quote : Char) (read : Text) (gap : Gap) (cursor : Cursor) :
    Option (Text × Cursor) :=
  match _same : cursor.rest with
  | [] => none
  | c :: rest =>
    if cursor.atDocumentMark then none
    else if isSpacing c || isBreak c then readQuoted? quote read (gap.add c) cursor.next
    else
      let read := gap.folded.reverse ++ read
      if c == quote then
        if quote == '\'' && rest.head? == some '\'' then
          readQuoted? quote (c :: read) Gap.empty (cursor.skip 2)
        else some (read.reverse, cursor.next)
      else if quote == '"' && c == '\\' then
        if rest.head?.any isBreak then readQuoted? quote read Gap.hidden (cursor.skip 2)
        else
          match escape? rest with
          | some (escaped, used) =>
            readQuoted? quote (escaped :: read) Gap.empty (cursor.next.skip used)
          | none => none
      else readQuoted? quote (c :: read) Gap.empty cursor.next
  termination_by cursor.rest.length
  decreasing_by
    all_goals
      simp only [Cursor.rest_next, Cursor.rest_skip, _same, List.length_drop, List.length_cons]
      omega

/-- What is done with the line breaks at the end of a block scalar. -/
inductive Chomping where
  | strip
  | clip
  | keep
  deriving DecidableEq, Repr

/-- The signs after the indicator of a block scalar, in either order: what happens to the line
breaks at its end, and how far it is indented. -/
def blockSigns? (cursor : Cursor) : Option (Chomping × Option Nat × Cursor) :=
  let sign? (cursor : Cursor) : Option (Chomping × Cursor) :=
    match cursor.head? with
    | some '+' => some (.keep, cursor.next)
    | some '-' => some (.strip, cursor.next)
    | _ => none
  let digit? (cursor : Cursor) : Option (Nat × Cursor) :=
    match cursor.head? with
    | some c => if c.isDigit then some (c.toNat - '0'.toNat, cursor.next) else none
    | none => none
  match sign? cursor with
  | some (chomping, cursor) =>
    match digit? cursor with
    | some (0, _) => none
    | some (indent, cursor) => some (chomping, some indent, cursor)
    | none => some (chomping, none, cursor)
  | none =>
    match digit? cursor with
    | some (0, _) => none
    | some (indent, cursor) =>
      match sign? cursor with
      | some (chomping, cursor) => some (chomping, some indent, cursor)
      | none => some (.clip, some indent, cursor)
    | none => some (.clip, none, cursor)

/-- Skips empty lines and the indentation of the next line, up to column `indent` if that is known.
Gives the line breaks, the largest column met, and the cursor. -/
def blockBreaks? (indent : Nat) (breaks : Text) (largest : Nat) (position : Position) :
    Text → Option (Text × Nat × Cursor)
  | [] => some (breaks, max largest position.column, ⟨position, []⟩)
  | c :: rest =>
    let open? := indent == 0 || position.column < indent
    let widest := max largest position.column
    if c == ' ' && open? then blockBreaks? indent breaks largest (position.after c) rest
    else if c == '\t' && open? then none
    else if isBreak c then blockBreaks? indent (breaks ++ [c]) widest (position.after c) rest
    else some (breaks, widest, ⟨position, c :: rest⟩)

/-- What was read of a block scalar: its text, the break that ended its last line, and the breaks of
the empty lines after that. -/
structure BlockText where
  text : Text
  ended : Text
  empties : Text
  /-- The last line began with a space or a tab. -/
  indented : Bool
  deriving DecidableEq, Repr

/-- The text so far and the begin of the next line. In a folded scalar the break between two lines
is a space, unless one of them is indented or empty lines lie between them. -/
def BlockText.join (block : BlockText) (folded indented : Bool) : Text :=
  if folded && block.ended.head? == some '\n' && !block.indented && !indented then
    if block.empties.isEmpty then block.text ++ [' '] else block.text ++ block.empties
  else block.text ++ block.ended ++ block.empties

/-- Reads the lines of a block scalar at column `indent`. -/
def readBlockLines? (folded : Bool) (indent : Nat) (block : BlockText) :
    Nat → Cursor → Option (BlockText × Cursor)
  | 0, cursor => some (block, cursor)
  | fuel + 1, cursor =>
    match cursor.head? with
    | none => some (block, cursor)
    | some c =>
      if cursor.position.column != indent then some (block, cursor)
      else
        let indented := isSpacing c
        let (line, after) := cursor.takeWhile fun d => !isBreak d
        let text := block.join folded indented ++ line
        match after.head? with
        | none => some (⟨text, [], [], indented⟩, after)
        | some ended => do
          let (empties, _, cursor) ← blockBreaks? indent [] 0 after.next.position after.next.rest
          readBlockLines? folded indent ⟨text, [ended], empties, indented⟩ fuel cursor

/-- Reads a block scalar after its indicator, inside a block whose own column is `outer`. -/
def readBlock? (folded : Bool) (outer : Int) (cursor : Cursor) : Option (Text × Cursor) := do
  let (chomping, increment, cursor) ← blockSigns? cursor
  let cursor ← cursor.endLine?
  let fixed :=
    match increment with
    | some increment => if outer ≥ 0 then outer.toNat + increment else increment
    | none => 0
  let (empties, largest, cursor) ← blockBreaks? fixed [] 0 cursor.position cursor.rest
  let indent := if fixed == 0 then max largest (max (outer + 1).toNat 1) else fixed
  let (block, cursor) ← readBlockLines? folded indent ⟨[], [], empties, false⟩ cursor.rest.length
    cursor
  match chomping with
  | .strip => pure (block.text, cursor)
  | .clip => pure (block.text ++ block.ended, cursor)
  | .keep => pure (block.text ++ block.ended ++ block.empties, cursor)

end ShaderBuild.Yaml
