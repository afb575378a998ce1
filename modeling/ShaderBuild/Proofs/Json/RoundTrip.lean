import Mathlib.Data.List.Forall2
import Mathlib.Tactic.IntervalCases
import ShaderBuild.Json.Texts
/-!
What is written as JSON is read back.
-/
namespace ShaderBuild.Json

/-- A text whose tokens are `tokens`, whatever follows it. -/
def Reads (text : Text) (tokens : List Token) : Prop :=
  ∀ rest, tokensFrom none (text ++ rest) = (tokensFrom none rest).map (tokens ++ ·)

namespace Reads

variable {first second text : Text} {tokens more : List Token}

theorem nil : Reads [] [] := by
  intro rest
  rw [List.nil_append]
  cases tokensFrom none rest <;> rfl

theorem append (reads : Reads first tokens) (later : Reads second more) :
    Reads (first ++ second) (tokens ++ more) := by
  intro rest
  rw [List.append_assoc, reads, later, Option.map_map]
  congr 1
  funext others
  exact (List.append_assoc tokens more others).symm

/-- White space between tokens is none. -/
theorem blank {c : Char} (white : c = ' ' ∨ c = '\n') (reads : Reads text tokens) :
    Reads (c :: text) tokens := by
  intro rest
  rw [List.cons_append, tokensFrom]
  rcases white with rfl | rfl <;> exact reads rest

theorem blanks (count : Nat) (reads : Reads text tokens) :
    Reads (List.replicate count ' ' ++ text) tokens := by
  induction count with
  | zero => exact reads
  | succ count ih => exact ih.blank (.inl rfl)

theorem punctuation {c : Char} {token : Token} (known : punctuation? c = some token)
    (reads : Reads text tokens) : Reads (c :: text) (token :: tokens) := by
  intro rest
  have visible : ¬(c == ' ' || c == '\n' || c == '\r' || c == '\t') = true := by
    simp only [Bool.or_eq_true, beq_iff_eq, not_or]
    refine ⟨⟨⟨?_, ?_⟩, ?_⟩, ?_⟩ <;> rintro rfl <;> simp [punctuation?] at known
  have plain : ¬(c == '"') = true := by
    rw [beq_iff_eq]
    rintro rfl
    simp [punctuation?] at known
  rw [List.cons_append, tokensFrom]
  rw [if_neg visible, if_neg plain, known, reads]
  cases tokensFrom none rest <;> rfl

end Reads

private theorem escape?_control {code : Nat} (low : code < 0x20) (rest : Text) :
    escape? (['u', '0', '0', Nat.digitChar (code / 16), Nat.digitChar (code % 16)] ++ rest) =
      some (Char.ofNat code, 5) := by
  interval_cases code <;> rfl

private theorem tokensFrom_quoteChar (read : Text) (c : Char) (rest : Text) :
    tokensFrom (some read) (quoteChar c ++ rest) = tokensFrom (some (c :: read)) rest := by
  unfold quoteChar
  split
  any_goals
    rw [List.cons_append, tokensFrom]
    rfl
  rename_i quote slash back form line ret tab
  split
  · rename_i control
    have escaped := escape?_control control rest
    change tokensFrom (some read) ('\\' :: (['u', '0', '0', _, _] ++ rest)) = _
    rw [tokensFrom]
    simp only [escaped, Char.ofNat_toNat]
    rfl
  · rename_i visible
    have first : c ≠ '"' := fun same => quote same
    have second : c ≠ '\\' := fun same => slash same
    rw [List.cons_append, tokensFrom]
    simp [first, second, visible]

private theorem tokensFrom_text (read text rest : Text) :
    tokensFrom (some read) (text.flatMap quoteChar ++ '"' :: rest) =
      (tokensFrom none rest).map (.text (read.reverse ++ text) :: ·) := by
  induction text generalizing read with
  | nil =>
    rw [List.flatMap_nil, List.nil_append, tokensFrom, List.append_nil]
    cases tokensFrom none rest <;> rfl
  | cons c text ih =>
    rw [List.flatMap_cons, List.append_assoc, tokensFrom_quoteChar, ih, List.reverse_cons,
      List.append_assoc]
    rfl

theorem Reads.quote (text : Text) : Reads (quote text) [.text text] := by
  intro rest
  have shape : Json.quote text ++ rest = '"' :: (text.flatMap quoteChar ++ '"' :: rest) := by
    simp [Json.quote]
  rw [shape, tokensFrom]
  exact tokensFrom_text [] text rest

/-- Token lists with commas between each two of them. -/
def commas (items : List (List Token)) : List Token :=
  [Token.comma].intercalate items

/-- Items that are written with a text between each two of them that reads as a comma. -/
theorem Reads.joinWith {separator : Text} (parts : Reads separator [.comma]) {texts : List Text}
    {items : List (List Token)} (each : List.Forall₂ Reads texts items) :
    Reads (Text.joinWith separator texts) (commas items) := by
  induction each with
  | nil => exact Reads.nil
  | cons first later ih =>
    cases later with
    | nil => simpa [Text.joinWith, commas, List.intercalate] using first
    | cons second last =>
      have whole := (first.append parts).append ih
      simpa [Text.joinWith, commas, List.intercalate] using whole

private theorem reads_lines (indent : Nat) {texts : List Text} {items : List (List Token)}
    (each : List.Forall₂ Reads texts items) :
    Reads (Text.joinWith [',', '\n'] (texts.map (List.replicate indent ' ' ++ ·))) (commas items) := by
  have parts : Reads [',', '\n'] [.comma] := (Reads.nil.blank (.inr rfl)).punctuation rfl
  exact parts.joinWith (List.forall₂_map_left_iff.mpr (each.imp fun _ _ reads => reads.blanks indent))

/-- A block reads as its items between its brackets. -/
theorem Reads.block {left right : Char} {opening closing : Token}
    (opens : punctuation? left = some opening) (closes : punctuation? right = some closing)
    (indent : Nat) {texts : List Text} {items : List (List Token)}
    (each : List.Forall₂ Reads texts items) :
    Reads (writeBlock left right indent texts) (opening :: commas items ++ [closing]) := by
  have last : Reads [right] [closing] := nil.punctuation closes
  unfold writeBlock
  cases each with
  | nil => exact last.punctuation opens
  | cons first later =>
    have lines := reads_lines indent (.cons first later)
    have ends := (last.blanks (indent - 2)).blank (c := '\n') (.inr rfl)
    have whole := ((lines.append ends).blank (c := '\n') (.inr rfl)).punctuation opens
    simpa using whole

theorem items?_commas (item : Text) (items : List Text) (rest : List Token) :
    items? (commas ((item :: items).map fun text => [.text text]) ++ .closeBracket :: rest) =
      some (item :: items, rest) := by
  induction items generalizing item with
  | nil => rfl
  | cons next items ih =>
    have shape : commas ((item :: next :: items).map fun text => [Token.text text])
          ++ .closeBracket :: rest =
        .text item :: .comma :: (commas ((next :: items).map fun text => [Token.text text])
          ++ .closeBracket :: rest) := by
      simp [commas, List.intercalate]
    rw [shape, items?, ih]
    rfl

theorem texts?_commas (items : List Text) (rest : List Token) :
    texts? (.openBracket :: commas (items.map fun text => [.text text]) ++ .closeBracket :: rest) =
      some (items, rest) := by
  cases items with
  | nil => rfl
  | cons item items =>
    have found := items?_commas item items rest
    cases items with
    | nil => exact found
    | cons next items => exact found

/-- The tokens of a field. -/
def fieldTokens (field : Text × List Text) : List Token :=
  .text field.1 :: .colon :: .openBracket :: commas (field.2.map fun text => [.text text])
    ++ [.closeBracket]

private theorem fields?_step (key : Text) (value : List Text) (rest : List Token) :
    fields? (fieldTokens (key, value) ++ rest) =
      match rest with
      | .comma :: more => (fields? more).map fun found => ((key, value) :: found.1, found.2)
      | .closeBrace :: more => some ([(key, value)], more)
      | _ => none := by
  have read := texts?_commas value rest
  rw [List.cons_append] at read
  have shape : fieldTokens (key, value) ++ rest =
      .text key :: .colon :: (.openBracket :: commas (value.map fun text => [.text text])
        ++ .closeBracket :: rest) := by
    simp [fieldTokens]
  rw [shape, fields?]
  split
  · rename_i found more same
    obtain ⟨rfl, rfl⟩ : value = found ∧ rest = .comma :: more := by simpa [read] using same
    rfl
  · rename_i found more same
    obtain ⟨rfl, rfl⟩ : value = found ∧ rest = .closeBrace :: more := by simpa [read] using same
    rfl
  · rename_i comma brace
    split
    · exact absurd read (comma _ _)
    · exact absurd read (brace _ _)
    · rfl

private theorem fields?_commas (field : Text × List Text) (fields : List (Text × List Text)) :
    fields? (commas ((field :: fields).map fieldTokens) ++ [.closeBrace]) =
      some (field :: fields, []) := by
  induction fields generalizing field with
  | nil =>
    have only := fields?_step field.1 field.2 [.closeBrace]
    simpa [commas, List.intercalate] using only
  | cons next fields ih =>
    have first := fields?_step field.1 field.2
      (.comma :: (commas ((next :: fields).map fieldTokens) ++ [.closeBrace]))
    have shape : commas ((field :: next :: fields).map fieldTokens) ++ [.closeBrace] =
        fieldTokens field ++
          .comma :: (commas ((next :: fields).map fieldTokens) ++ [.closeBrace]) := by
      simp [commas, List.intercalate]
    rw [shape]
    refine first.trans ?_
    dsimp only
    rw [ih]
    rfl

private theorem reads_texts (items : List Text) :
    List.Forall₂ Reads (items.map quote) (items.map fun text => [.text text]) := by
  induction items with
  | nil => exact .nil
  | cons item items ih => exact .cons (Reads.quote item) ih

private theorem tokensFrom_nil : tokensFrom none [] = some [] := by
  rw [tokensFrom]
  rfl

theorem readTexts?_writeTexts (items : List Text) : readTexts? (writeTexts items) = some items := by
  have parts : Reads [','] [.comma] := Reads.nil.punctuation rfl
  have last : Reads [']'] [.closeBracket] := Reads.nil.punctuation rfl
  have opens : punctuation? '[' = some .openBracket := rfl
  have whole := ((parts.joinWith (reads_texts items)).append last).punctuation opens []
  rw [List.append_nil, tokensFrom_nil] at whole
  have tokens : tokens? (writeTexts items) = some (.openBracket ::
      commas (items.map fun text => [.text text]) ++ .closeBracket :: []) := by
    simpa [tokens?, writeTexts] using whole
  rw [readTexts?, tokens, Option.bind_some, texts?_commas]

private theorem reads_field (field : Text × List Text) :
    Reads (quote field.1 ++ [':', ' '] ++ writeBlock '[' ']' 4 (field.2.map quote))
      (fieldTokens field) := by
  have opens : punctuation? '[' = some .openBracket := rfl
  have closes : punctuation? ']' = some .closeBracket := rfl
  have block := Reads.block opens closes 4 (reads_texts field.2)
  have whole := (Reads.quote field.1).append
    ((block.blank (c := ' ') (.inl rfl)).punctuation (c := ':') rfl)
  simpa [fieldTokens] using whole

/-- Reading gives back the fields that were written, in their order. -/
theorem readFields?_writeFields (fields : List (Text × List Text)) :
    readFields? (writeFields fields) = some fields := by
  have each : List.Forall₂ Reads
      (fields.map fun field => quote field.1 ++ [':', ' '] ++ writeBlock '[' ']' 4 (field.2.map quote))
      (fields.map fieldTokens) := by
    induction fields with
    | nil => exact .nil
    | cons field fields ih => exact .cons (reads_field field) ih
  have opens : punctuation? '\x7b' = some .openBrace := rfl
  have closes : punctuation? '\x7d' = some .closeBrace := rfl
  have found := Reads.block opens closes 2 each []
  rw [List.append_nil, tokensFrom_nil] at found
  unfold readFields? tokens? writeFields
  rw [found]
  cases fields with
  | nil => rfl
  | cons field fields =>
    have whole := fields?_commas field fields
    have filled : commas ((field :: fields).map fieldTokens) ≠ [] := by
      cases fields <;> simp [commas, fieldTokens, List.intercalate]
    simp only [Option.map_some, List.append_nil, List.cons_append]
    split
    · rename_i same
      exact absurd (by simpa using same) filled
    · rename_i rest _ same
      obtain rfl := (List.cons.inj (Option.some.inj same)).2
      rw [whole]
    · rename_i other
      exact absurd rfl (other _)

end ShaderBuild.Json
