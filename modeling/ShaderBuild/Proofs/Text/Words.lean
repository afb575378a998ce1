import ShaderBuild.Directive.Grammar
import Mathlib.Data.List.TakeWhile
import Mathlib.Tactic.Common
/-!
The words of a text, and what they say of the directive that a body is read as.
-/
namespace ShaderBuild

namespace Text

/-- The pieces of a text between its white space. -/
def words (text : Text) : List Text :=
  (text.splitOnP isBlank).filter fun word => !word.isEmpty

@[simp] theorem words_nil : words [] = [] := by
  simp [words]

theorem words_append (before rest : Text) {c : Char} (blank : isBlank c = true) :
    words (before ++ c :: rest) = words before ++ words rest := by
  rw [words, List.splitOnP_append_cons before rest blank, List.filter_append]
  rfl

theorem words_blank {c : Char} (blank : isBlank c = true) (rest : Text) :
    words (c :: rest) = words rest := by
  simpa using words_append [] rest blank

theorem words_token {word : Text} (token : isToken word = true) : words word = [word] := by
  have solid : word ≠ [] ∧ ∀ c ∈ word, isBlank c = false := by
    simpa [isToken] using token
  rw [words, List.splitOnP_eq_singleton solid.2]
  simp [solid.1]

private theorem words_append_blanks (text blanks : Text) (blank : ∀ c ∈ blanks, isBlank c = true) :
    words (text ++ blanks) = words text := by
  induction blanks generalizing text with
  | nil => simp
  | cons c rest ih =>
    rw [words_append text rest (blank c (by simp))]
    have nothing := ih [] fun c member => blank c (by simp [member])
    simpa using nothing

private theorem words_dropWhile (text : Text) : words (text.dropWhile isBlank) = words text := by
  induction text with
  | nil => rfl
  | cons c rest ih =>
    by_cases blank : isBlank c = true
    · simp [blank, ih, words_blank]
    · simp [blank]

@[simp] theorem words_trim (text : Text) : words (trim text) = words text := by
  have cut : text.dropWhile isBlank =
      trim text ++ ((text.dropWhile isBlank).reverse.takeWhile isBlank).reverse := by
    unfold trim trimEnd trimStart
    rw [← List.reverse_append, List.takeWhile_append_dropWhile, List.reverse_reverse]
  rw [← words_dropWhile text, cut]
  refine (words_append_blanks _ _ fun c member => ?_).symm
  exact List.mem_takeWhile_imp (List.mem_reverse.mp member)

theorem words_firstWord {text first rest : Text} (cut : firstWord text = (first, rest))
    (begun : first ≠ []) : words text = first :: words rest := by
  obtain ⟨rfl, rfl⟩ := Prod.mk.inj cut
  have solid : ∀ c ∈ text.takeWhile (fun c => !isBlank c), isBlank c = false :=
    fun c member => by simpa using List.mem_takeWhile_imp member
  have token : isToken (text.takeWhile fun c => !isBlank c) = true := by
    simpa [isToken, begun] using solid
  have whole : text.takeWhile (fun c => !isBlank c) ++ text.dropWhile (fun c => !isBlank c) = text :=
    List.takeWhile_append_dropWhile
  cases follows : text.dropWhile fun c => !isBlank c with
  | nil =>
    rw [follows, List.append_nil] at whole
    rw [whole] at token ⊢
    simpa using words_token token
  | cons c rest =>
    have blank : isBlank c = true := by
      have stops := List.head?_dropWhile_not (fun c => !isBlank c) text
      simpa [follows] using stops
    conv_lhs => rw [← whole, follows, words_append _ _ blank, words_token token]
    simp

end Text

namespace Directive

/-- The word with which a directive begins. -/
def keyword? : Directive → Option Text
  | .functionBegin _ => some "func".toList
  | .functionEnd => some "endfunc".toList
  | .whenever _ => some "if".toList
  | .otherwiseWhen _ => some "elif".toList
  | .otherwise => some "else".toList
  | .endWhen => some "endif".toList
  | .define _ => some "def".toList
  | .include _ => some "include".toList
  | .comment => none
  | .unknown _ => none

/-- What a directive says after its first word, as far as the words of its body tell. -/
def operands? : Directive → Option (List Text)
  | .functionEnd => some []
  | .define name => some [name]
  | .include name => some [name]
  | _ => none

/-- The directive that a keyword and its operand make, if they make one. -/
def known? (keyword operand : Text) : Option Directive :=
  match String.ofList keyword with
  | "func" => if operand.isEmpty then none else some (.functionBegin (.ofText operand))
  | "endfunc" => if operand.isEmpty then some .functionEnd else none
  | "if" => (Condition.parse? operand).map .whenever
  | "elif" => (Condition.parse? operand).map .otherwiseWhen
  | "else" => if operand.isEmpty then some .otherwise else none
  | "endif" => if operand.isEmpty then some .endWhen else none
  | "def" => if Text.isToken operand then some (.define operand) else none
  | "include" => if Text.isToken operand then some (.include operand) else none
  | _ => none

theorem parse_eq_known? (body : Text) : parse body =
    (known? (Text.firstWord (Text.trim body)).1 (Text.trim (Text.firstWord (Text.trim body)).2)).getD
      (.unknown body) := by
  unfold parse known?
  dsimp only
  generalize Text.trim (Text.firstWord (Text.trim body)).2 = operand
  generalize String.ofList (Text.firstWord (Text.trim body)).1 = word
  split
  case h_3 | h_4 => rfl
  case h_9 => simp
  all_goals split <;> rfl

/-- What a keyword and its operand make. -/
inductive Makes : Text → Text → Directive → Prop where
  | functionBegin {operand : Text} (some : operand ≠ []) :
      Makes "func".toList operand (.functionBegin (.ofText operand))
  | functionEnd : Makes "endfunc".toList [] .functionEnd
  | whenever {operand : Text} {condition : Condition}
      (read : Condition.parse? operand = some condition) :
      Makes "if".toList operand (.whenever condition)
  | otherwiseWhen {operand : Text} {condition : Condition}
      (read : Condition.parse? operand = some condition) :
      Makes "elif".toList operand (.otherwiseWhen condition)
  | otherwise : Makes "else".toList [] .otherwise
  | endWhen : Makes "endif".toList [] .endWhen
  | define {name : Text} (token : Text.isToken name = true) :
      Makes "def".toList name (.define name)
  | include {name : Text} (token : Text.isToken name = true) :
      Makes "include".toList name (.include name)

section
variable {body keyword operand : Text} {directive : Directive}

theorem known?_eq_some :
    known? keyword operand = some directive ↔ Makes keyword operand directive := by
  constructor
  · intro known
    have spelled {word : String} (same : String.ofList keyword = word) : keyword = word.toList := by
      rw [← same, String.toList_ofList]
    unfold known? at known
    split at known
    case h_1 same =>
      split at known
      · cases known
      · rename_i some
        obtain rfl := Option.some.inj known
        rw [spelled same]
        exact .functionBegin (by simpa using some)
    case h_3 same =>
      obtain ⟨condition, read, rfl⟩ := Option.map_eq_some_iff.mp known
      rw [spelled same]
      exact .whenever read
    case h_4 same =>
      obtain ⟨condition, read, rfl⟩ := Option.map_eq_some_iff.mp known
      rw [spelled same]
      exact .otherwiseWhen read
    case h_9 => cases known
    all_goals
      rename_i same
      split at known
      · rename_i fits
        obtain rfl := Option.some.inj known
        rw [spelled same]
        first
        | obtain rfl := List.isEmpty_iff.mp fits
          constructor
        | exact .define fits
        | exact .include fits
      · cases known
  · intro makes
    cases makes with
    | functionBegin some => exact if_neg (by simpa using some)
    | whenever read | otherwiseWhen read => exact congrArg (Option.map _) read
    | define token | «include» token => exact if_pos token
    | functionEnd | otherwise | endWhen => rfl

theorem Makes.keyword? (makes : Makes keyword operand directive) :
    directive.keyword? = some keyword := by
  cases makes <;> rfl

/-- A body that says something known is read as what its first word and the rest make. -/
theorem makes_parse (known : ∀ raw, parse body ≠ .unknown raw) :
    Makes (Text.firstWord (Text.trim body)).1 (Text.trim (Text.firstWord (Text.trim body)).2)
      (parse body) := by
  have read := parse_eq_known? body
  cases made : known? (Text.firstWord (Text.trim body)).1
      (Text.trim (Text.firstWord (Text.trim body)).2) with
  | none =>
    rw [made] at read
    exact absurd read (known body)
  | some directive =>
    rw [made] at read
    rw [read]
    exact known?_eq_some.mp made

theorem makes_of_parse (read : parse body = directive) (known : ∀ raw, directive ≠ .unknown raw) :
    Makes (Text.firstWord (Text.trim body)).1 (Text.trim (Text.firstWord (Text.trim body)).2)
      directive :=
  read ▸ makes_parse fun raw same => known raw (read.symm.trans same)

private theorem Makes.words_operand (makes : Makes keyword operand directive)
    {operands : List Text} (same : directive.operands? = some operands) :
    Text.words operand = operands := by
  cases makes with
  | functionEnd =>
    obtain rfl := Option.some.inj same
    exact Text.words_nil
  | define token | «include» token =>
    obtain rfl := Option.some.inj same
    exact Text.words_token token
  | functionBegin | whenever | otherwiseWhen | otherwise | endWhen => cases same

/-- A directive that is known begins with its keyword. -/
theorem words_parse {word : Text} (known : (parse body).keyword? = some word) :
    ∃ operand, Text.words body = word :: Text.words operand ∧
      ∀ operands, (parse body).operands? = some operands → Text.words operand = operands := by
  have makes := @makes_parse body fun raw same => by
    rw [same] at known
    cases known
  obtain rfl := Option.some.inj (makes.keyword?.symm.trans known)
  have begun : (Text.firstWord (Text.trim body)).1 ≠ [] := by
    intro none
    rw [none] at makes
    cases makes
  refine ⟨_, ?_, fun operands same => makes.words_operand same⟩
  rw [Text.words_trim, ← Text.words_trim body]
  exact Text.words_firstWord rfl begun

end

theorem words_of_operands {body word : Text} {operands : List Text}
    (known : (parse body).keyword? = some word) (same : (parse body).operands? = some operands) :
    Text.words body = word :: operands := by
  obtain ⟨operand, begun, rest⟩ := words_parse known
  rw [begun, rest operands same]

theorem words_include {body name : Text} (read : parse body = .include name) :
    Text.words body = ["include".toList, name] :=
  words_of_operands (by rw [read]; rfl) (by rw [read]; rfl)

theorem words_define {body name : Text} (read : parse body = .define name) :
    Text.words body = ["def".toList, name] :=
  words_of_operands (by rw [read]; rfl) (by rw [read]; rfl)

theorem words_functionEnd {body : Text} (read : parse body = .functionEnd) :
    Text.words body = ["endfunc".toList] :=
  words_of_operands (by rw [read]; rfl) (by rw [read]; rfl)

theorem words_native {body line : Text} (native : (parse body).native? = some line) :
    ∃ word rest, Text.words body = word :: rest ∧ word ≠ "include".toList ∧ word ≠ ['\\'] := by
  cases read : parse body with
  | whenever =>
    obtain ⟨operand, begun, _⟩ := words_parse (congrArg keyword? read)
    exact ⟨_, _, begun, by decide, by decide⟩
  | otherwiseWhen =>
    obtain ⟨operand, begun, _⟩ := words_parse (congrArg keyword? read)
    exact ⟨_, _, begun, by decide, by decide⟩
  | otherwise =>
    obtain ⟨operand, begun, _⟩ := words_parse (congrArg keyword? read)
    exact ⟨_, _, begun, by decide, by decide⟩
  | endWhen =>
    obtain ⟨operand, begun, _⟩ := words_parse (congrArg keyword? read)
    exact ⟨_, _, begun, by decide, by decide⟩
  | define => exact ⟨_, _, words_define read, by decide, by decide⟩
  | _ => simp [read, native?] at native

end Directive

end ShaderBuild
