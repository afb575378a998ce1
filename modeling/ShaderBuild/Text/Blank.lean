/-!
White space by the Unicode property `White_Space`, and the trimming and splitting that follow it.
-/
namespace ShaderBuild

/-- A text is the list of its characters. -/
abbrev Text := List Char

namespace Text

/-- The code points with the property `White_Space`, as closed ranges. -/
def blankRanges : List (Nat × Nat) :=
  [(0x09, 0x0D), (0x20, 0x20), (0x85, 0x85), (0xA0, 0xA0), (0x1680, 0x1680), (0x2000, 0x200A),
    (0x2028, 0x2029), (0x202F, 0x202F), (0x205F, 0x205F), (0x3000, 0x3000)]

/-- The character has the property `White_Space`. -/
def isBlank (c : Char) : Bool :=
  blankRanges.any fun range => range.1 ≤ c.toNat && c.toNat ≤ range.2

/-- The text without its leading white space. -/
def trimStart (text : Text) : Text :=
  text.dropWhile isBlank

/-- The text without its trailing white space. -/
def trimEnd (text : Text) : Text :=
  (text.reverse.dropWhile isBlank).reverse

/-- The text without white space at either end. -/
def trim (text : Text) : Text :=
  trimEnd (trimStart text)

/-- A token is a non-empty text without white space. -/
def isToken (text : Text) : Bool :=
  !text.isEmpty && !text.any isBlank

/-- The text up to the first white space, and what follows that one character. -/
def firstWord (text : Text) : Text × Text :=
  (text.takeWhile fun c => !isBlank c, (text.dropWhile fun c => !isBlank c).drop 1)

/-- The text as a string, for messages. -/
def str (text : Text) : String :=
  String.ofList text

end Text

end ShaderBuild
