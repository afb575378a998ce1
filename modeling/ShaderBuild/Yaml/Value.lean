import ShaderBuild.Yaml.Reader
/-!
Reading a node as a text, a truth value, a number, or as nothing. A tag does not change what a plain
scalar can be read as; a scalar in quotes is never anything but a text.
-/
namespace ShaderBuild.Yaml

/-- The words for nothing. -/
def nullWords : List String :=
  ["null", "Null", "NULL", "~"]

def isNullWord (text : Text) : Bool :=
  nullWords.any fun word => word.toList == text

/-- The tag that marks nothing. -/
def nullTag : String := "tag:yaml.org,2002:null"

/-- The tag that marks truth values. -/
def boolTag : String := "tag:yaml.org,2002:bool"

/-- The tag that marks integers. -/
def intTag : String := "tag:yaml.org,2002:int"

def truthValue? (text : Text) : Option Bool :=
  if text ∈ ["true".toList, "True".toList, "TRUE".toList] then some true
  else if text ∈ ["false".toList, "False".toList, "FALSE".toList] then some false
  else none

/-- A number without a sign: hexadecimal, octal or binary after `0x`, `0o` or `0b`, else decimal and
without a zero in front. -/
def unsigned? : Text → Option Nat
  | '0' :: 'x' :: rest => Text.digits? 16 rest
  | '0' :: 'o' :: rest => Text.digits? 8 rest
  | '0' :: 'b' :: rest => Text.digits? 2 rest
  | '0' :: _ :: _ => none
  | text => Text.digits? 10 text

/-- A number below 2⁶⁴, with or without a plus sign. -/
def natural? (text : Text) : Option Nat :=
  Text.word? (unsigned? (Text.dropPlus text))

namespace Node

/-- The scalar as a text, as it is written. -/
def asText? : Node → Option Text
  | .scalar text _ _ => some text
  | _ => none

/-- The text from which another value may be read: that of a plain scalar, or of a literal block
with the tag of such values. -/
def unquoted? (expected : String) : Node → Option Text
  | .scalar text .plain _ => some text
  | .scalar text .literal (some tag) => if tag == expected.toList then some text else none
  | _ => none

def asBool? (node : Node) : Option Bool :=
  (node.unquoted? boolTag).bind truthValue?

def asNat? (node : Node) : Option Nat :=
  (node.unquoted? intTag).bind natural?

/-- Whether the node stands for nothing. A node that its tag marks as nothing has to say so. -/
def isNull? : Node → Option Bool
  | .scalar text .plain none => some (text.isEmpty || isNullWord text)
  | .scalar text .plain (some tag) =>
    if tag == nullTag.toList then if isNullWord text then some true else none else some false
  | _ => some false

/-- Reads a node that may stand for nothing. -/
def optional? {α : Type} (read : Node → Option α) (node : Node) : Option (Option α) :=
  match node.isNull? with
  | some true => some none
  | some false => (read node).map some
  | none => none

end Node

end ShaderBuild.Yaml
