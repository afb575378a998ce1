import ShaderBuild.Proofs.Directive.Conditions
import ShaderBuild.Proofs.Text.Words
/-!
Directives written out. Each known directive has a canonical body; reading a body, writing the
directive out and reading it again gives the directive, and a directive of plain operands is read from
its body whatever white space stands around and between the parts.
-/
namespace ShaderBuild

open Text (Blank Spaced Trimmed isToken isBlank trim joinWith)

namespace Condition

/-- The parts of the expression that asks for the condition. -/
def parts : Condition → List Text
  | .equals left right => [left, "==".toList, right]
  | .undefined name => ["not".toList, name]
  | .defined name => [name]

/-- The operands are tokens without an equals sign. -/
def Plain : Condition → Prop
  | .equals left right => (isToken left = true ∧ '=' ∉ left) ∧ isToken right = true ∧ '=' ∉ right
  | .undefined name => isToken name = true ∧ '=' ∉ name
  | .defined name => isToken name = true ∧ '=' ∉ name

section
variable {expression left right name run tail gap second : Text} {condition : Condition}

/-! ### Equalities -/

private theorem rightSide?_gap (blank : Blank gap) (tail : Text) :
    rightSide? (gap ++ tail) = rightSide? tail := by
  rw [rightSide?, Text.dropWhile_blank blank, ← rightSide?]

private theorem sides?_gap (blank : Blank gap) (apart : gap ≠ []) (tail : Text) :
    sides? (gap ++ tail) = none := by
  obtain ⟨c, rest, rfl⟩ := List.exists_cons_of_ne_nil apart
  rw [List.cons_append, sides?, if_pos (blank c List.mem_cons_self)]

private theorem sides?_word (token : isToken left = true) (stops : sides? tail = none)
    (read : rightSide? tail = some right) : sides? (left ++ tail) = some (left, right) := by
  obtain ⟨some, solid⟩ := Text.isToken_iff.mp token
  clear token
  induction left with
  | nil => exact absurd rfl some
  | cons c rest ih =>
    have inner : isBlank c = false := solid c List.mem_cons_self
    rw [List.cons_append, sides?, inner]
    cases rest with
    | nil => simp [stops, read]
    | cons next rest =>
      have longer : sides? (next :: (rest ++ tail)) = _ :=
        ih (by simp) fun d member => solid d (List.mem_cons_of_mem _ member)
      simp [longer]

private theorem equals_mem_of_rightSide? (read : rightSide? tail = some right) : '=' ∈ tail := by
  obtain ⟨before, behind, rfl, -⟩ := rightSide?_eq_some.mp read
  simp

private theorem parse?_equals (token : isToken left = true) (tokenToo : isToken right = true)
    (blank : Blank gap) (apart : gap ≠ []) (blankToo : Blank second) :
    parse? (left ++ (gap ++ ("==".toList ++ (second ++ right)))) = some (.equals left right) := by
  have read : sides? (left ++ (gap ++ ("==".toList ++ (second ++ right)))) = some (left, right) := by
    refine sides?_word token (sides?_gap blank apart _) ?_
    exact rightSide?_eq_some.mpr ⟨gap, second, rfl, blank, blankToo, tokenToo⟩
  rw [parse?, read]

/-! ### Negations -/

private theorem sides?_not (blank : Blank gap) (apart : gap ≠ []) (open_ : rightSide? name = none) :
    sides? ("not".toList ++ (gap ++ name)) = none := by
  have stops := sides?_gap blank apart name
  have none := (rightSide?_gap blank name).trans open_
  have word {c : Char} (rest : Text) (solid : isBlank c = false) (other : c ≠ '=') :
      rightSide? (c :: rest) = Option.none := by
    rw [rightSide?, List.dropWhile_cons, solid]
    simp [other]
  have last : isBlank 't' = false := by decide
  have middle : isBlank 'o' = false := by decide
  have first : isBlank 'n' = false := by decide
  simp [sides?, stops, none, first, middle, last, word]

private theorem parse?_undefined (token : isToken name = true) (blank : Blank gap) (apart : gap ≠ [])
    (open_ : rightSide? name = none) :
    parse? ("not".toList ++ (gap ++ name)) = some (.undefined name) := by
  rw [parse?, sides?_not blank apart open_,
    negated?_eq_some.mpr ⟨gap, rfl, blank, apart, token⟩]

private theorem not_negates_token (token : isToken expression = true) : ¬ Negates expression name := by
  rintro ⟨gap, rfl, blank, apart, -⟩
  obtain ⟨c, rest, rfl⟩ := List.exists_cons_of_ne_nil apart
  have solid := (Text.isToken_iff.mp token).2 c (by simp)
  simp [blank c List.mem_cons_self] at solid

/-! ### Whole conditions -/

private theorem parse?_equals_spaced (token : isToken left = true) (tokenToo : isToken right = true)
    (spaced : Spaced (parts (.equals left right)) expression) :
    parse? expression = some (.equals left right) := by
  rcases spaced with _ | _ | ⟨blank, apart, _ | _ | ⟨blankToo, -, _ | _ | _⟩⟩
  exact parse?_equals token tokenToo blank apart blankToo

private theorem parse?_undefined_spaced (token : isToken name = true) (open_ : rightSide? name = none)
    (spaced : Spaced (parts (.undefined name)) expression) :
    parse? expression = some (.undefined name) := by
  rcases spaced with _ | _ | ⟨blank, apart, _ | _ | _⟩
  exact parse?_undefined token blank apart open_

theorem parse?_spaced (plain : condition.Plain) (spaced : Spaced condition.parts expression) :
    parse? expression = some condition := by
  cases condition with
  | equals left right => exact parse?_equals_spaced plain.1.1 plain.2.1 spaced
  | undefined name =>
    refine parse?_undefined_spaced plain.1 (Option.eq_none_iff_forall_not_mem.mpr ?_) spaced
    exact fun right read => plain.2 (equals_mem_of_rightSide? read)
  | defined name =>
    rcases spaced with _ | _ | _
    refine parse?_eq_defined.mpr ⟨?_, fun _ => not_negates_token plain.1, plain.1, rfl⟩
    rintro left right ⟨before, behind, rfl, -⟩
    exact plain.2 (by simp)

theorem parse?_again {other : Text} (read : parse? expression = some condition)
    (spaced : Spaced condition.parts other) : parse? other = some condition := by
  cases condition with
  | equals left right =>
    obtain ⟨_, _, -, -, -, token, tokenToo⟩ := (parse?_eq_equals.mp read).1
    exact parse?_equals_spaced token tokenToo spaced
  | undefined name =>
    obtain ⟨unequal, gap, rfl, blank, apart, token⟩ := parse?_eq_undefined.mp read
    refine parse?_undefined_spaced token (Option.eq_none_iff_forall_not_mem.mpr ?_) spaced
    intro right signed
    have sides := @sides?_word "not".toList right (gap ++ name) (by decide)
      (sides?_gap blank apart _) ((rightSide?_gap blank name).trans signed)
    exact unequal _ _ (sides?_eq_some.mp sides).1
  | defined name =>
    obtain ⟨-, -, -, rfl⟩ := parse?_eq_defined.mp read
    rcases spaced with _ | _ | _
    exact read

theorem isToken_of_mem_parts (read : parse? expression = some condition) :
    ∀ part ∈ condition.parts, isToken part = true := by
  cases condition with
  | equals left right =>
    obtain ⟨_, _, -, -, -, token, tokenToo⟩ := (parse?_eq_equals.mp read).1
    simp only [parts, List.forall_mem_cons]
    exact ⟨token, by decide, tokenToo, by simp⟩
  | undefined name =>
    obtain ⟨-, _, -, -, -, token⟩ := parse?_eq_undefined.mp read
    simp only [parts, List.forall_mem_cons]
    exact ⟨by decide, token, by simp⟩
  | defined name =>
    obtain ⟨-, -, token, rfl⟩ := parse?_eq_defined.mp read
    simpa [parts] using token

theorem Plain.isToken (plain : condition.Plain) : ∀ part ∈ condition.parts, isToken part = true := by
  cases condition with
  | equals left right =>
    simp only [parts, List.forall_mem_cons]
    exact ⟨plain.1.1, by decide, plain.2.1, by simp⟩
  | undefined name =>
    simp only [parts, List.forall_mem_cons]
    exact ⟨by decide, plain.1, by simp⟩
  | defined name => simpa [parts] using plain.1

end

end Condition

namespace FunctionHeader

variable {header : FunctionHeader} {text : Text}

/-- The name is all that stands before the first parenthesis or white space of the header, and the
arguments are all that stands behind it and the white space that follows it. -/
structure Split (header : FunctionHeader) : Prop where
  trimmed : Trimmed header.text
  name : ∀ c ∈ header.name, c ≠ '(' ∧ isBlank c = false
  arguments : ∀ c ∈ header.arguments.head?, isBlank c = false
  whole : ∃ gap, Blank gap ∧ header.text = header.name ++ (gap ++ header.arguments) ∧
    ∀ c ∈ (gap ++ header.arguments).head?, c = '(' ∨ isBlank c = true

private theorem head?_dropWhile_name {c : Char}
    (first : c ∈ (text.dropWhile fun c => !(c == '(' || isBlank c)).head?) :
    c = '(' ∨ isBlank c = true := by
  have stops := List.head?_dropWhile_not (fun c => !(c == '(' || isBlank c)) text
  rw [Option.mem_def.mp first] at stops
  simpa [or_iff_not_imp_left] using stops

theorem split_ofText (trimmed : Trimmed text) : (ofText text).Split := by
  obtain ⟨gap, trail, blank, behind, cut⟩ :=
    Text.exists_around_trim (text.dropWhile fun c => !(c == '(' || isBlank c))
  have whole : text = (ofText text).name ++ (gap ++ ((ofText text).arguments ++ trail)) := by
    change text = text.takeWhile _ ++ (gap ++ (trim (text.dropWhile _) ++ trail))
    rw [← cut, List.takeWhile_append_dropWhile]
  -- White space behind the arguments would stand at the end of the header.
  obtain rfl : trail = [] := by
    by_contra some
    have last := List.getLast?_eq_some_getLast some
    have ends : trail.getLast some ∈ text.getLast? := by
      rw [whole]
      simp [List.getLast?_append, last]
    have solid := (Text.trim_eq_self_iff.mp trimmed.2).2 _ ends
    simp [behind _ (List.getLast_mem some)] at solid
  rw [List.append_nil] at whole cut
  refine ⟨trimmed, fun c member => ?_, ?_, gap, blank, whole, fun c first => ?_⟩
  · simpa using List.mem_takeWhile_imp member
  · exact (Text.trim_eq_self_iff.mp (Text.trim_trim _)).1
  · change c ∈ (gap ++ trim (text.dropWhile _)).head? at first
    rw [← cut] at first
    exact head?_dropWhile_name first

/-- The text of a header leaves no choice. -/
theorem Split.eq_ofText (split : header.Split) : header = ofText header.text := by
  obtain ⟨trimmed, solid, front, gap, blank, whole, stops⟩ := split
  have inside : ∀ c ∈ header.name, (!(c == '(' || isBlank c)) = true := by
    intro c member
    simp [solid c member]
  have outside : (gap ++ header.arguments).takeWhile (fun c => !(c == '(' || isBlank c)) = [] ∧
      (gap ++ header.arguments).dropWhile (fun c => !(c == '(' || isBlank c)) =
        gap ++ header.arguments := by
    cases rest : gap ++ header.arguments with
    | nil => simp
    | cons c rest =>
      have ended := stops c (by simp [rest])
      constructor
      · exact List.takeWhile_cons_of_neg (by simpa [or_iff_not_imp_left] using ended)
      · exact List.dropWhile_cons_of_neg (by simpa [or_iff_not_imp_left] using ended)
  have tight : trim header.arguments = header.arguments := by
    refine Text.trim_eq_self_iff.mpr ⟨front, fun c last => ?_⟩
    refine (Text.trim_eq_self_iff.mp trimmed.2).2 c ?_
    rw [whole]
    simp [List.getLast?_append, Option.mem_def.mp last]
  have name : header.name = (ofText header.text).name := by
    rw [ofText, whole, List.takeWhile_append_of_pos inside, outside.1, List.append_nil]
  have arguments : header.arguments = (ofText header.text).arguments := by
    have around := Text.trim_around blank (by simp [Blank] : Blank []) header.arguments
    rw [List.append_nil, tight] at around
    rw [ofText, whole, List.dropWhile_append_of_pos inside, outside.2, around]
  calc header = ⟨header.name, header.arguments, header.text⟩ := rfl
    _ = ofText header.text := by
      rw [name, arguments]
      rfl

end FunctionHeader

namespace Directive

/-- What stands behind the keyword of a directive; the header of a function is one part. -/
def operandParts : Directive → List Text
  | .functionBegin header => [header.text]
  | .whenever condition => condition.parts
  | .otherwiseWhen condition => condition.parts
  | .define name => [name]
  | .include name => [name]
  | _ => []

/-- The parts of the canonical body of a directive. Comments and unknown markers have none. -/
def parts? (directive : Directive) : Option (List Text) :=
  directive.keyword?.map (· :: directive.operandParts)

/-- The canonical body of a directive: its parts with single spaces between. -/
def print? (directive : Directive) : Option Text :=
  directive.parts?.map (joinWith [' '])

/-- The operands are tokens, in conditions without an equals sign, and a header is any text that is
not empty and is trimmed, with the name and the arguments split from it. -/
def Plain : Directive → Prop
  | .functionBegin header => header.Split
  | .whenever condition => condition.Plain
  | .otherwiseWhen condition => condition.Plain
  | .define name => isToken name = true
  | .include name => isToken name = true
  | _ => True

section
variable {body keyword operand text lead trail gap : Text} {directive : Directive}

/-- Every way to write the operand makes the directive with this keyword. -/
def SaidBy (keyword : Text) (directive : Directive) : Prop :=
  ∀ operand, Spaced directive.operandParts operand → known? keyword operand = some directive

theorem parse_spaced (token : isToken keyword = true) (said : directive.SaidBy keyword)
    (trimmed : ∀ part ∈ directive.operandParts, Trimmed part)
    (spaced : Spaced (keyword :: directive.operandParts) text) (before : Blank lead)
    (behind : Blank trail) : parse (lead ++ (text ++ trail)) = directive := by
  have parts : ∀ part ∈ keyword :: directive.operandParts, Trimmed part :=
    List.forall_mem_cons.mpr ⟨Text.trimmed_of_isToken token, trimmed⟩
  have whole : trim (lead ++ (text ++ trail)) = text :=
    (Text.trim_around before behind text).trans (spaced.trimmed (by simp) parts).2
  rw [parse_eq_known?, whole]
  unfold SaidBy at said
  generalize directive.operandParts = operands at *
  cases spaced with
  | single =>
    have read : known? keyword (trim []) = some directive := said [] .nil
    simp only [Text.firstWord_token token, read, Option.getD_some]
  | @cons _ next gap operand rest blank apart later =>
    obtain ⟨c, tail, rfl⟩ := List.exists_cons_of_ne_nil apart
    have around : Blank tail := fun d member => blank d (List.mem_cons_of_mem _ member)
    have nothing : Blank [] := by simp [Blank]
    have trims : trim (tail ++ operand) = operand := by
      have same := Text.trim_around around nothing operand
      rw [List.append_nil] at same
      exact same.trans (later.trimmed (by simp) trimmed).2
    have cut := Text.firstWord_append token (blank c List.mem_cons_self) (tail ++ operand)
    simp only [List.cons_append, cut, trims, said operand later, Option.getD_some]

/-- A directive that was made is made again by its parts. -/
theorem Makes.said (makes : Makes keyword operand directive) : directive.SaidBy keyword := by
  intro other spaced
  apply known?_eq_some.mpr
  cases makes with
  | functionBegin some =>
    cases spaced
    exact .functionBegin some
  | functionEnd =>
    cases spaced
    exact .functionEnd
  | whenever read => exact .whenever (Condition.parse?_again read spaced)
  | otherwiseWhen read => exact .otherwiseWhen (Condition.parse?_again read spaced)
  | otherwise =>
    cases spaced
    exact .otherwise
  | endWhen =>
    cases spaced
    exact .endWhen
  | define token =>
    cases spaced
    exact .define token
  | «include» token =>
    cases spaced
    exact .include token

/-- A plain directive is made by its parts. -/
theorem Plain.said (plain : directive.Plain) (named : directive.keyword? = some keyword) :
    directive.SaidBy keyword := by
  intro operand spaced
  apply known?_eq_some.mpr
  cases directive with
  | functionBegin header =>
    obtain rfl := Option.some.inj named
    cases spaced
    have split : header.Split := plain
    rw [split.eq_ofText]
    exact .functionBegin split.trimmed.1
  | whenever condition =>
    obtain rfl := Option.some.inj named
    exact .whenever (Condition.parse?_spaced plain spaced)
  | otherwiseWhen condition =>
    obtain rfl := Option.some.inj named
    exact .otherwiseWhen (Condition.parse?_spaced plain spaced)
  | define name =>
    obtain rfl := Option.some.inj named
    cases spaced
    exact .define plain
  | «include» name =>
    obtain rfl := Option.some.inj named
    cases spaced
    exact .include plain
  | functionEnd =>
    obtain rfl := Option.some.inj named
    cases spaced
    exact .functionEnd
  | otherwise =>
    obtain rfl := Option.some.inj named
    cases spaced
    exact .otherwise
  | endWhen =>
    obtain rfl := Option.some.inj named
    cases spaced
    exact .endWhen
  | comment | unknown => simp [keyword?] at named

theorem isToken_keyword (named : directive.keyword? = some keyword) : isToken keyword = true := by
  cases directive with
  | comment | unknown => simp [keyword?] at named
  | _ =>
    obtain rfl := Option.some.inj named
    decide

theorem Plain.trimmed (plain : directive.Plain) : ∀ part ∈ directive.operandParts, Trimmed part := by
  cases directive with
  | functionBegin header =>
    intro part member
    obtain rfl := List.mem_singleton.mp member
    exact FunctionHeader.Split.trimmed plain
  | whenever condition | otherwiseWhen condition =>
    exact fun part member => Text.trimmed_of_isToken (Condition.Plain.isToken plain part member)
  | define name | «include» name => simpa [operandParts] using Text.trimmed_of_isToken plain
  | _ => simp [operandParts]

/-- The operands of a directive that was made are trimmed. -/
theorem Makes.trimmed (makes : Makes keyword operand directive) (tight : trim operand = operand) :
    ∀ part ∈ directive.operandParts, Trimmed part := by
  cases makes with
  | functionBegin some => exact List.forall_mem_singleton.mpr ⟨some, tight⟩
  | whenever read | otherwiseWhen read =>
    intro part member
    exact Text.trimmed_of_isToken (Condition.isToken_of_mem_parts read part member)
  | define token | «include» token =>
    exact List.forall_mem_singleton.mpr (Text.trimmed_of_isToken token)
  | functionEnd | otherwise | endWhen => simp [operandParts]

/-- A plain directive is read from its parts, whatever white space stands around and between them. -/
theorem Plain.parse {parts : List Text} (plain : directive.Plain)
    (written : directive.parts? = some parts) (spaced : Spaced parts text) (before : Blank lead)
    (behind : Blank trail) : Directive.parse (lead ++ (text ++ trail)) = directive := by
  obtain ⟨keyword, named, rfl⟩ := Option.map_eq_some_iff.mp written
  exact parse_spaced (isToken_keyword named) (plain.said named) plain.trimmed spaced before behind

theorem Makes.split {header : FunctionHeader}
    (makes : Makes keyword operand (.functionBegin header)) (tight : trim operand = operand) :
    header.Split := by
  cases makes with
  | functionBegin some => exact FunctionHeader.split_ofText ⟨some, tight⟩

end

/-- Reading is a left inverse of writing out: of what was read from any body, and, however white space
is put around and between the parts, of every directive of plain operands. The name and the arguments of
a function block are split from its header, in the one way there is to split it. -/
theorem parse_print :
    (∀ body, (∀ raw, parse body ≠ .unknown raw) →
      ∃ printed, (parse body).print? = some printed ∧ parse printed = parse body) ∧
    (∀ body header, parse body = .functionBegin header → header.Split) ∧
    (∀ text, Trimmed text → ∃! header : FunctionHeader, header.text = text ∧ header.Split) ∧
    ∀ (directive : Directive) (parts : List Text) (lead text trail : Text),
      directive.Plain → directive.parts? = some parts → Spaced parts text → Blank lead → Blank trail →
        parse (lead ++ (text ++ trail)) = directive := by
  refine ⟨fun body known => ?_, fun body header read => ?_, fun text trimmed => ?_, ?_⟩
  · have makes := makes_parse known
    refine ⟨_, by rw [print?, parts?, makes.keyword?]; rfl, ?_⟩
    have nothing : Blank [] := by simp [Blank]
    have again := parse_spaced (isToken_keyword makes.keyword?) makes.said
      (makes.trimmed (Text.trim_trim _)) (Text.spaced_joinWith _) nothing nothing
    rwa [List.nil_append, List.append_nil] at again
  · have makes := makes_of_parse read (by simp)
    exact makes.split (Text.trim_trim _)
  · refine ⟨.ofText text, ⟨rfl, FunctionHeader.split_ofText trimmed⟩, ?_⟩
    rintro header ⟨rfl, split⟩
    exact split.eq_ofText
  · intro directive parts lead text trail plain written spaced before behind
    exact plain.parse written spaced before behind

/-- Of three equals signs the first belongs to the left side, which the written form keeps; a name ends
at the parenthesis behind it; line ends and wide spaces separate words as spaces do. -/
theorem parse_print_spaces :
    (∃ printed, (parse "if A===B".toList).print? = some printed ∧
      parse printed = parse "if A===B".toList) ∧
    FunctionHeader.Split ⟨"f".toList, "(x, y) z".toList, "f(x, y) z".toList⟩ ∧
    (∃! header : FunctionHeader, header.text = "f  x".toList ∧ header.Split) ∧
    parse "\n\u3000elif \n not\u00a0X\n".toList = .otherwiseWhen (.undefined "X".toList) := by
  have read : parse "if A===B".toList = .whenever (.equals "A=".toList "B".toList) := by decide +kernel
  have called : parse "func f(x, y) z\n".toList =
      .functionBegin ⟨"f".toList, "(x, y) z".toList, "f(x, y) z".toList⟩ := by decide +kernel
  have operand : Spaced ["not".toList, "X".toList] ("not".toList ++ ("\u00a0".toList ++ "X".toList)) :=
    .cons (by simp [Blank]; decide) (by simp) (.single _)
  have spaced : Spaced ["elif".toList, "not".toList, "X".toList]
      ("elif".toList ++ (" \n ".toList ++ ("not".toList ++ ("\u00a0".toList ++ "X".toList)))) :=
    .cons (by simp [Blank]; decide) (by simp) operand
  refine ⟨parse_print.1 _ fun raw same => ?_, parse_print.2.1 _ _ called,
    parse_print.2.2.1 _ ⟨by decide, by decide⟩, ?_⟩
  · rw [read] at same
    cases same
  · exact parse_print.2.2.2 (.otherwiseWhen (.undefined "X".toList)) _ "\n\u3000".toList _ "\n".toList
      ⟨by decide, by decide⟩ rfl spaced (by simp [Blank]; decide) (by simp [Blank]; decide)

end Directive

end ShaderBuild
