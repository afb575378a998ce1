import ShaderBuild.Json.Token
import ShaderBuild.Text.Lines
/-!
Lists of texts, and objects whose values are such lists, as JSON.
-/
namespace ShaderBuild.Json

/-- The items up to the closing bracket of a list that is not empty. -/
def items? : List Token → Option (List Text × List Token)
  | .text item :: .comma :: rest => (items? rest).map fun found => (item :: found.1, found.2)
  | .text item :: .closeBracket :: rest => some ([item], rest)
  | _ => none

/-- A list of texts, and the tokens after it. -/
def texts? : List Token → Option (List Text × List Token)
  | .openBracket :: .closeBracket :: rest => some ([], rest)
  | .openBracket :: rest => items? rest
  | _ => none

theorem items?_shorter {tokens rest : List Token} {found : List Text}
    (read : items? tokens = some (found, rest)) : rest.length < tokens.length := by
  fun_induction items? tokens generalizing found with
  | case1 item more ih =>
    obtain ⟨inner, same, pair⟩ := Option.map_eq_some_iff.mp read
    obtain ⟨_, rfl⟩ := Prod.mk.inj pair
    have shorter := ih same
    simp only [List.length_cons]
    omega
  | case2 item more =>
    obtain ⟨_, rfl⟩ := Prod.mk.inj (Option.some.inj read)
    simp only [List.length_cons]
    omega
  | case3 => simp at read

theorem texts?_shorter {tokens rest : List Token} {found : List Text}
    (read : texts? tokens = some (found, rest)) : rest.length < tokens.length := by
  unfold texts? at read
  split at read
  · obtain ⟨_, rfl⟩ := Prod.mk.inj (Option.some.inj read)
    simp only [List.length_cons]
    omega
  · have shorter := items?_shorter read
    simp only [List.length_cons]
    omega
  · simp at read

/-- The fields up to the closing brace of an object that is not empty, and what follows it. -/
def fields? : List Token → Option (List (Text × List Text) × List Token)
  | .text key :: .colon :: rest =>
    match _read : texts? rest with
    | some (value, .comma :: more) =>
      (fields? more).map fun found => ((key, value) :: found.1, found.2)
    | some (value, .closeBrace :: more) => some ([(key, value)], more)
    | _ => none
  | _ => none
  termination_by tokens => tokens.length
  decreasing_by
    have shorter := texts?_shorter _read
    simp only [List.length_cons] at shorter ⊢
    omega

/-- Reads a text that is one list of texts. -/
def readTexts? (text : Text) : Option (List Text) :=
  match (tokens? text).bind texts? with
  | some (found, []) => some found
  | _ => none

/-- Reads a text that is one object of lists of texts: its fields in the order written. -/
def readFields? (text : Text) : Option (List (Text × List Text)) :=
  match tokens? text with
  | some [.openBrace, .closeBrace] => some []
  | some (.openBrace :: rest) =>
    match fields? rest with
    | some (found, []) => some found
    | _ => none
  | _ => none

/-- A list of texts without any white space. -/
def writeTexts (items : List Text) : Text :=
  '[' :: Text.joinWith [','] (items.map quote) ++ [']']

/-- The items between two brackets, each on a line of its own, `indent` spaces in; the closing
bracket is two spaces less in. -/
def writeBlock (left right : Char) (indent : Nat) (items : List Text) : Text :=
  if items.isEmpty then [left, right]
  else
    left :: '\n' :: Text.joinWith [',', '\n'] (items.map (List.replicate indent ' ' ++ ·))
      ++ '\n' :: List.replicate (indent - 2) ' ' ++ [right]

/-- An object of lists of texts, one field and one item a line. -/
def writeFields (fields : List (Text × List Text)) : Text :=
  writeBlock '\x7b' '\x7d' 2 (fields.map fun field =>
    quote field.1 ++ [':', ' '] ++ writeBlock '[' ']' 4 (field.2.map quote))

end ShaderBuild.Json
