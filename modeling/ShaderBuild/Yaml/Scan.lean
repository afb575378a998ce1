import ShaderBuild.Text.Utf8
import ShaderBuild.Yaml.Scalar
/-!
Cutting a YAML text into tokens. Indentation opens and closes blocks. That a word is the key of a
mapping shows only at the colon after it, so the place of each possible key is remembered, and the
tokens for the key are put in there.
-/
namespace ShaderBuild.Yaml

/-- A word that is a key if a colon follows. -/
structure KeyCandidate where
  /-- The number of tokens before it. -/
  place : Nat
  position : Position
  /-- Nothing but a key can stand here. -/
  required : Bool
  deriving DecidableEq, Repr

structure Scanner where
  cursor : Cursor
  /-- The tokens so far, the last one first. -/
  tokens : List Token
  /-- The column of the innermost block, and those of the blocks around it. -/
  indent : Int
  outer : List Int
  /-- A key may start here. -/
  keyAllowed : Bool
  /-- The possible key on each level of brackets and braces, innermost first; outside of all of them
  there is one level too. -/
  keys : List (Option KeyCandidate)
  deriving DecidableEq, Repr

namespace Scanner

def start (text : Text) : Scanner :=
  ⟨⟨⟨0, 0, 0⟩, text⟩, [], -1, [], true, [none]⟩

/-- Inside brackets or braces. -/
def inFlow (scanner : Scanner) : Bool :=
  scanner.keys.length > 1

def column (scanner : Scanner) : Int :=
  scanner.cursor.position.column

def push (scanner : Scanner) (token : Token) : Scanner :=
  { scanner with tokens := token :: scanner.tokens }

def skip (scanner : Scanner) (count : Nat) : Scanner :=
  { scanner with cursor := scanner.cursor.skip count }

def allowKey (scanner : Scanner) (allowed : Bool) : Scanner :=
  { scanner with keyAllowed := allowed }

/-- Puts a token in after the first `place` tokens. -/
def insertAt (scanner : Scanner) (place : Nat) (token : Token) : Scanner :=
  { scanner with
    tokens := scanner.tokens.insertIdx (scanner.tokens.length - place) token }

/-- The longest key in bytes. -/
def maximalKey : Nat := 1024

/-- A possible key ends with its line and with the longest length. -/
def isStale (scanner : Scanner) (key : KeyCandidate) : Bool :=
  key.position.line < scanner.cursor.position.line
    || key.position.index + maximalKey < scanner.cursor.position.index

/-- Forgets the possible keys that can be none any more; a required one may not be among them. -/
def dropStale? (scanner : Scanner) : Option Scanner := do
  let keys ← scanner.keys.mapM fun key =>
    match key with
    | some candidate =>
      if scanner.isStale candidate then if candidate.required then none else some none
      else some key
    | none => some none
  pure { scanner with keys := keys }

/-- Forgets the possible key of this level, which may not be required. -/
def dropKey? (scanner : Scanner) : Option Scanner :=
  match scanner.keys with
  | some candidate :: rest =>
    if candidate.required then none else some { scanner with keys := none :: rest }
  | _ => some scanner

/-- Remembers that a key may start here. -/
def saveKey? (scanner : Scanner) : Option Scanner :=
  if scanner.keyAllowed then do
    let scanner ← scanner.dropKey?
    let candidate : KeyCandidate :=
      ⟨scanner.tokens.length, scanner.cursor.position,
        !scanner.inFlow && scanner.indent == scanner.column⟩
    pure { scanner with keys := some candidate :: scanner.keys.drop 1 }
  else some scanner

/-- Opens a block at a column, if that is further in than the innermost block; its first token goes
after the first `place` tokens. -/
def openBlock (scanner : Scanner) (column : Int) (place : Nat) (token : Token) : Scanner :=
  if scanner.inFlow || scanner.indent ≥ column then scanner
  else
    { scanner.insertAt place token with
      indent := column
      outer := scanner.indent :: scanner.outer }

/-- Opens a block here. -/
def openBlockHere (scanner : Scanner) (token : Token) : Scanner :=
  scanner.openBlock scanner.column scanner.tokens.length token

/-- Closes blocks until the innermost one is at the column or further out. -/
def closeBlocks (column : Int) (tokens : List Token) (indent : Int) :
    List Int → List Token × Int × List Int
  | [] => (tokens, indent, [])
  | next :: rest =>
    if indent > column then closeBlocks column (.blockEnd :: tokens) next rest
    else (tokens, indent, next :: rest)

/-- Closes the blocks that are further in than a column. -/
def unroll (scanner : Scanner) (column : Int) : Scanner :=
  if scanner.inFlow then scanner
  else
    let (tokens, indent, outer) := closeBlocks column scanner.tokens scanner.indent scanner.outer
    { scanner with tokens := tokens, indent := indent, outer := outer }

/-- Skips white space, comments and line ends up to the next token. Outside of brackets a new line
may start with a key; a tab is no white space where a key may start. A byte order mark at the start
of a line is skipped too, and takes a column. -/
def skipGaps (scanner : Scanner) (inComment : Bool) (position : Position) : Text → Scanner
  | [] => { scanner with cursor := ⟨position, []⟩ }
  | c :: rest =>
    let onward := fun (scanner : Scanner) (inComment : Bool) =>
      skipGaps scanner inComment (position.after c) rest
    if isBreak c then onward (if scanner.inFlow then scanner else scanner.allowKey true) false
    else if inComment then onward scanner true
    else if c == '\uFEFF' && position.column == 0 then onward scanner false
    else if c == ' ' || (c == '\t' && (scanner.inFlow || !scanner.keyAllowed)) then
      onward scanner false
    else if c == '#' then onward scanner true
    else { scanner with cursor := ⟨position, c :: rest⟩ }

/-! Tokens -/

/-- A mark between documents, or a line that begins with `%`, ends all blocks. -/
def endBlocks? (scanner : Scanner) : Option Scanner := do
  let scanner ← (scanner.unroll (-1)).dropKey?
  pure (scanner.allowKey false)

def isWordChar (c : Char) : Bool :=
  c.isAlphanum || c == '_' || c == '-'

/-- The text of a number, at most nine digits long. -/
def number? (cursor : Cursor) : Option (Nat × Cursor) :=
  let (digits, cursor) := cursor.takeWhile Char.isDigit
  if digits.isEmpty || digits.length > 9 then none
  else some (digits.foldl (fun value c => value * 10 + (c.toNat - '0'.toNat)) 0, cursor)

/-- Characters of a tag; `%` and two digits stand for a byte. -/
def isTagChar (verbatim : Bool) (c : Char) : Bool :=
  isWordChar c || c ∈ [';', '/', '?', ':', '@', '&', '=', '+', '$', '.', '!', '~', '*', '\'', '(',
    ')', '%'] || (verbatim && c ∈ [',', '[', ']'])

/-- The number of bytes of the character that a byte begins, as far as its first bits tell. -/
def sequenceLength? (byte : Nat) : Option Nat :=
  if byte < 0x80 then some 1
  else if 0xC0 ≤ byte && byte < 0xE0 then some 2
  else if 0xE0 ≤ byte && byte < 0xF0 then some 3
  else if 0xF0 ≤ byte && byte < 0xF8 then some 4
  else none

/-- The bytes of a tag. `%` has to be followed by two hexadecimal digits; once it begins a character
of several bytes, the `owed` others have to be written so too. -/
def tagBytes? (owed : Nat) : Text → Option (List UInt8)
  | '%' :: high :: low :: rest => do
    let byte ← Text.digits? 16 [high, low]
    let owed ←
      if owed = 0 then (sequenceLength? byte).map (· - 1)
      else if 0x80 ≤ byte && byte < 0xC0 then some (owed - 1)
      else none
    (tagBytes? owed rest).map (UInt8.ofNat byte :: ·)
  | c :: rest =>
    if c == '%' || owed > 0 then none else (tagBytes? 0 rest).map (Text.encode [c] ++ ·)
  | [] => if owed = 0 then some [] else none

/-- What a tag says from here on, if something is written: a zero byte ends it. -/
def tagText? (verbatim : Bool) (cursor : Cursor) : Option (Text × Cursor) := do
  let (written, cursor) := cursor.takeWhile (isTagChar verbatim)
  let bytes ← if written.isEmpty then none else tagBytes? 0 written
  pure (Text.decodeLossy (bytes.takeWhile (· != 0)), cursor)

/-- The handle of a tag: a mark, a word, and a second mark, the latter two both optional. -/
def tagHandle? (cursor : Cursor) : Option (Text × Cursor) :=
  if cursor.head? == some '!' then
    let (word, cursor) := cursor.next.takeWhile isWordChar
    if cursor.head? == some '!' then some ('!' :: word ++ ['!'], cursor.next)
    else some ('!' :: word, cursor)
  else none

/-- A line that begins with `%`. -/
def directive? (scanner : Scanner) : Option Scanner := do
  let scanner ← scanner.endBlocks?
  let (name, cursor) := scanner.cursor.next.takeWhile isWordChar
  let cursor ← if atGap cursor.rest then some cursor else none
  let (token, cursor) ←
    match String.ofList name with
    | "YAML" => do
      let (major, cursor) ← number? cursor.skipSpacing
      let (minor, cursor) ← if cursor.head? == some '.' then number? cursor.next else none
      pure (Token.version major minor, cursor)
    | "TAG" => do
      let (handle, cursor) ← tagHandle? cursor.skipSpacing
      if handle.length > 1 && handle.getLast? != some '!' then none
      else if !cursor.head?.any isSpacing then none
      else
        let (start, cursor) ← tagText? true cursor.skipSpacing
        if atGap cursor.rest then pure (Token.tagHandle handle start, cursor) else none
    | _ => none
  let cursor ← cursor.endLine?
  pure ({ scanner with cursor := cursor }.push token)

/-- The mark that begins or ends a document. -/
def documentMark? (scanner : Scanner) (token : Token) : Option Scanner := do
  let scanner ← scanner.endBlocks?
  pure ((scanner.skip 3).push token)

def openFlow? (scanner : Scanner) (token : Token) : Option Scanner := do
  let scanner ← scanner.saveKey?
  pure (({ scanner with keys := none :: scanner.keys }.allowKey true).skip 1 |>.push token)

def closeFlow? (scanner : Scanner) (token : Token) : Option Scanner := do
  let scanner ← scanner.dropKey?
  let keys := if scanner.keys.length > 1 then scanner.keys.drop 1 else scanner.keys
  pure (({ scanner with keys := keys }.allowKey false).skip 1 |>.push token)

def flowEntry? (scanner : Scanner) : Option Scanner := do
  let scanner ← scanner.dropKey?
  pure ((scanner.allowKey true).skip 1 |>.push .flowEntry)

def blockEntry? (scanner : Scanner) : Option Scanner := do
  let scanner ←
    if scanner.inFlow then some scanner
    else if scanner.keyAllowed then some (scanner.openBlockHere .blockSequenceStart)
    else none
  let scanner ← scanner.dropKey?
  pure ((scanner.allowKey true).skip 1 |>.push .blockEntry)

/-- A key that is marked as one. -/
def explicitKey? (scanner : Scanner) : Option Scanner := do
  let scanner ←
    if scanner.inFlow then some scanner
    else if scanner.keyAllowed then some (scanner.openBlockHere .blockMappingStart)
    else none
  let scanner ← scanner.dropKey?
  pure ((scanner.allowKey (!scanner.inFlow)).skip 1 |>.push .key)

/-- A colon: the possible key before it is one. -/
def value? (scanner : Scanner) : Option Scanner := do
  let scanner ←
    match scanner.keys with
    | some candidate :: rest =>
      let scanner := scanner.insertAt candidate.place .key
      let scanner := scanner.openBlock candidate.position.column candidate.place .blockMappingStart
      some ({ scanner with keys := none :: rest }.allowKey false)
    | _ =>
      if scanner.inFlow then some (scanner.allowKey false)
      else if scanner.keyAllowed then
        some ((scanner.openBlockHere .blockMappingStart).allowKey true)
      else none
  pure (scanner.skip 1 |>.push .value)

/-- A name that follows `&` or `*`. -/
def name? (scanner : Scanner) (token : Text → Token) : Option Scanner := do
  let scanner ← scanner.saveKey?
  let (name, cursor) := scanner.cursor.next.takeWhile isWordChar
  let closed :=
    atGap cursor.rest
      || cursor.head?.any fun c => c ∈ ['?', ':', ',', ']', '\x7d', '%', '@', '\x60']
  if name.isEmpty || !closed then none
  else pure ({ scanner with cursor := cursor }.allowKey false |>.push (token name))

/-- The handle and the rest of a tag; a lone mark is a tag too. -/
def readTag? (cursor : Cursor) : Option (Text × Text × Cursor) :=
  if cursor.startsWith "!<" then do
    let (tag, cursor) ← tagText? true (cursor.skip 2)
    if cursor.head? == some '>' then some ([], tag, cursor.next) else none
  else do
    let (handle, after) ← tagHandle? cursor
    if handle.length > 1 && handle.getLast? == some '!' then
      let (suffix, after) ← tagText? false after
      pure (handle, suffix, after)
    else
      let (more, after) ← if after.head?.any (isTagChar false) then tagText? false after
        else some ([], after)
      let suffix := handle.drop 1 ++ more
      if suffix.isEmpty then pure ([], ['!'], after) else pure (['!'], suffix, after)

def tag? (scanner : Scanner) : Option Scanner := do
  let scanner ← scanner.saveKey?
  let (handle, suffix, cursor) ← readTag? scanner.cursor
  if atGap cursor.rest || (scanner.inFlow && cursor.head? == some ',') then
    pure ({ scanner with cursor := cursor }.allowKey false |>.push (.tag handle suffix))
  else none

def blockScalar? (scanner : Scanner) (folded : Bool) : Option Scanner := do
  let scanner ← scanner.dropKey?
  let (text, cursor) ← readBlock? folded scanner.indent scanner.cursor.next
  pure ({ scanner with cursor := cursor }.allowKey true
    |>.push (.scalar text (if folded then .folded else .literal)))

def quotedScalar? (scanner : Scanner) (quote : Char) : Option Scanner := do
  let scanner ← scanner.saveKey?
  let (text, cursor) ← readQuoted? quote [] Gap.empty scanner.cursor.next
  pure ({ scanner with cursor := cursor }.allowKey false |>.push (.scalar text .quoted))

def plainScalar? (scanner : Scanner) : Option Scanner := do
  let scanner ← scanner.saveKey?
  let (text, cursor, ended) ← readPlain? scanner.inFlow (scanner.indent + 1) [] Gap.empty
    scanner.cursor.position scanner.cursor.rest
  pure ({ scanner with cursor := cursor }.allowKey ended |>.push (.scalar text .plain))

/-- Signs that begin no plain scalar. -/
def isIndicator (c : Char) : Bool :=
  c ∈ ['-', '?', ':', ',', '[', ']', '\x7b', '\x7d', '#', '&', '*', '!', '|', '>', '\'', '"', '%',
    '@', '\x60']

/-- A plain scalar may start with `c` before `rest`. -/
def startsPlain (inFlow : Bool) (c : Char) (rest : Text) : Bool :=
  !(isSpacing c || isBreak c || isIndicator c)
    || (c == '-' && !rest.head?.any isSpacing)
    || (!inFlow && (c == '?' || c == ':') && !atGap rest)

/-- Reads the token that starts with `c` before `rest`. -/
def token? (scanner : Scanner) (c : Char) (rest : Text) : Option Scanner :=
  let first := scanner.cursor.position.column == 0
  if first && c == '%' then scanner.directive?
  else if first && scanner.cursor.startsWith "---" && atGap (rest.drop 2) then
    scanner.documentMark? .documentStart
  else if first && scanner.cursor.startsWith "..." && atGap (rest.drop 2) then
    scanner.documentMark? .documentEnd
  else if c == '[' then scanner.openFlow? .flowSequenceStart
  else if c == '\x7b' then scanner.openFlow? .flowMappingStart
  else if c == ']' then scanner.closeFlow? .flowSequenceEnd
  else if c == '\x7d' then scanner.closeFlow? .flowMappingEnd
  else if c == ',' then scanner.flowEntry?
  else if c == '-' && atGap rest then scanner.blockEntry?
  else if c == '?' && (scanner.inFlow || atGap rest) then scanner.explicitKey?
  else if c == ':' && (scanner.inFlow || atGap rest) then scanner.value?
  else if c == '*' then scanner.name? .alias
  else if c == '&' then scanner.name? .anchor
  else if c == '!' then scanner.tag?
  else if c == '|' && !scanner.inFlow then scanner.blockScalar? false
  else if c == '>' && !scanner.inFlow then scanner.blockScalar? true
  else if c == '\'' || c == '"' then scanner.quotedScalar? c
  else if startsPlain scanner.inFlow c rest then scanner.plainScalar?
  else none

/-- Reads tokens to the end of the text; each takes at least one character. -/
def run? : Nat → Scanner → Option Scanner
  | 0, scanner => some scanner
  | fuel + 1, scanner => do
    let scanner :=
      scanner.skipGaps false scanner.cursor.position scanner.cursor.rest
    let scanner ← scanner.dropStale?
    let scanner := scanner.unroll scanner.column
    match scanner.cursor.rest with
    | [] => (scanner.unroll (-1)).dropKey?
    | c :: rest => do
      let scanner ← scanner.token? c rest
      run? fuel scanner

end Scanner

/-- The tokens of a text, if it can be cut into tokens. -/
def tokens? (text : Text) : Option (List Token) := do
  if text.all isAllowed then
    let scanner ← Scanner.run? (text.length + 1) (Scanner.start (normalizeBreaks text))
    pure scanner.tokens.reverse
  else none

end ShaderBuild.Yaml
