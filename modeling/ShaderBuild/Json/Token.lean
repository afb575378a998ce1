import ShaderBuild.Text.Number
/-!
The tokens of JSON texts made of strings, lists and objects, and the quoting of strings.
-/
namespace ShaderBuild.Json

inductive Token where
  | openBrace
  | closeBrace
  | openBracket
  | closeBracket
  | comma
  | colon
  | text (text : Text)
  deriving DecidableEq, Repr

/-- The value of the first four hexadecimal digits. -/
def hexFour? : Text → Option Nat
  | a :: b :: c :: d :: _ => do
    let a ← Text.digitValue? a
    let b ← Text.digitValue? b
    let c ← Text.digitValue? c
    let d ← Text.digitValue? d
    pure (((a * 16 + b) * 16 + c) * 16 + d)
  | _ => none

/-- The character that an escape stands for, and its length without the backslash. A character
beyond the first 65536 is written as two escapes, and no half of such a pair stands alone. -/
def escape? : Text → Option (Char × Nat)
  | 'u' :: rest => do
    let high ← hexFour? rest
    if 0xD800 ≤ high && high < 0xDC00 then
      match rest.drop 4 with
      | '\\' :: 'u' :: more => do
        let low ← hexFour? more
        if 0xDC00 ≤ low && low < 0xE000 then
          pure (Char.ofNat (0x10000 + (high - 0xD800) * 0x400 + (low - 0xDC00)), 11)
        else none
      | _ => none
    else if 0xDC00 ≤ high && high < 0xE000 then none
    else pure (Char.ofNat high, 5)
  | '"' :: _ => some ('"', 1)
  | '\\' :: _ => some ('\\', 1)
  | '/' :: _ => some ('/', 1)
  | 'b' :: _ => some ('\x08', 1)
  | 'f' :: _ => some ('\x0c', 1)
  | 'n' :: _ => some ('\n', 1)
  | 'r' :: _ => some ('\r', 1)
  | 't' :: _ => some ('\t', 1)
  | _ => none

def punctuation? (c : Char) : Option Token :=
  match c with
  | '\x7b' => some .openBrace
  | '\x7d' => some .closeBrace
  | '[' => some .openBracket
  | ']' => some .closeBracket
  | ',' => some .comma
  | ':' => some .colon
  | _ => none

/-- The tokens of a text; inside a string, `open?` holds the reverse of what was read of it. -/
def tokensFrom (open? : Option Text) : Text → Option (List Token)
  | [] => if open?.isNone then some [] else none
  | c :: rest =>
    match open? with
    | none =>
      if c == ' ' || c == '\n' || c == '\r' || c == '\t' then tokensFrom none rest
      else if c == '"' then tokensFrom (some []) rest
      else do
        let token ← punctuation? c
        let others ← tokensFrom none rest
        pure (token :: others)
    | some read =>
      if c == '"' then do
        let others ← tokensFrom none rest
        pure (.text read.reverse :: others)
      else if c == '\\' then
        match escape? rest with
        | some (escaped, used) => tokensFrom (some (escaped :: read)) (rest.drop used)
        | none => none
      else if c.toNat < 0x20 then none
      else tokensFrom (some (c :: read)) rest
  termination_by text => text.length

/-- The tokens of a text, if it is made of nothing else. -/
def tokens? (text : Text) : Option (List Token) :=
  tokensFrom none text

/-- A character inside a quoted string. -/
def quoteChar (c : Char) : Text :=
  match c with
  | '"' => ['\\', '"']
  | '\\' => ['\\', '\\']
  | '\x08' => ['\\', 'b']
  | '\x0c' => ['\\', 'f']
  | '\n' => ['\\', 'n']
  | '\r' => ['\\', 'r']
  | '\t' => ['\\', 't']
  | c =>
    if c.toNat < 0x20 then
      "\\u00".toList ++ [Nat.digitChar (c.toNat / 16), Nat.digitChar (c.toNat % 16)]
    else [c]

/-- A text as a JSON string. -/
def quote (text : Text) : Text :=
  '"' :: text.flatMap quoteChar ++ ['"']

end ShaderBuild.Json
