import ShaderBuild.Text.Lines
import Mathlib.Data.List.TakeWhile
import Mathlib.Tactic.Common
/-!
White space around and between the parts of a text: what trimming leaves, where the first word ends.
-/
namespace ShaderBuild.Text

/-- Nothing but white space. -/
def Blank (text : Text) : Prop :=
  ∀ c ∈ text, isBlank c = true

/-- Some text with no white space at either end. -/
def Trimmed (text : Text) : Prop :=
  text ≠ [] ∧ trim text = text

/-- The parts one after another, with white space between each two of them. -/
inductive Spaced : List Text → Text → Prop where
  | nil : Spaced [] []
  | single (part : Text) : Spaced [part] part
  | cons {part next gap text : Text} {rest : List Text} (blank : Blank gap) (apart : gap ≠ [])
      (later : Spaced (next :: rest) text) : Spaced (part :: next :: rest) (part ++ (gap ++ text))

variable {text word part gap lead trail operand rest : Text} {parts : List Text} {c : Char}

theorem isToken_iff : isToken text = true ↔ text ≠ [] ∧ ∀ c ∈ text, isBlank c = false := by
  simp [isToken]

/-! ### Trimming -/

theorem dropWhile_blank (blank : Blank gap) (text : Text) :
    (gap ++ text).dropWhile isBlank = text.dropWhile isBlank :=
  List.dropWhile_append_of_pos blank

private theorem trim_append (blank : Blank trail) (text : Text) : trim (text ++ trail) = trim text := by
  have behind : Blank trail.reverse := fun c member => blank c (List.mem_reverse.mp member)
  unfold trim trimEnd trimStart
  rw [List.dropWhile_append]
  split
  · rename_i nothing
    have none : trail.dropWhile isBlank = [] := by
      simpa using dropWhile_blank blank []
    rw [none, List.isEmpty_iff.mp nothing]
  · rw [List.reverse_append, dropWhile_blank behind]

theorem trim_around (before : Blank lead) (behind : Blank trail) (text : Text) :
    trim (lead ++ (text ++ trail)) = trim text := by
  rw [← trim_append behind text]
  unfold trim trimStart
  rw [dropWhile_blank before]

private theorem dropWhile_eq_self (text : Text) :
    text.dropWhile isBlank = text ↔ ∀ c ∈ text.head?, isBlank c = false := by
  rw [List.dropWhile_eq_self_iff]
  cases text <;> simp

/-- A text is trimmed when it neither begins nor ends with white space. -/
theorem trim_eq_self_iff : trim text = text ↔
    (∀ c ∈ text.head?, isBlank c = false) ∧ ∀ c ∈ text.getLast?, isBlank c = false := by
  have back : trimEnd text = text ↔ ∀ c ∈ text.getLast?, isBlank c = false := by
    rw [trimEnd, List.reverse_eq_iff, dropWhile_eq_self, List.head?_reverse]
  rw [← dropWhile_eq_self, ← back]
  constructor
  · intro same
    have front : trimStart text <:+ text := List.dropWhile_suffix _
    have shorter : (trimEnd (trimStart text)).length ≤ (trimStart text).length := by
      unfold trimEnd
      rw [List.length_reverse]
      exact (List.dropWhile_suffix _).length_le.trans (by simp)
    have whole : trimStart text = text := by
      refine front.eq_of_length_le ?_
      calc text.length = (trim text).length := by rw [same]
        _ ≤ (trimStart text).length := shorter
    refine ⟨whole, ?_⟩
    rw [trim, whole] at same
    exact same
  · rintro ⟨front, behind⟩
    rw [trim, trimStart, front, behind]

theorem exists_around_trim (text : Text) :
    ∃ lead trail, Blank lead ∧ Blank trail ∧ text = lead ++ (trim text ++ trail) := by
  refine ⟨text.takeWhile isBlank, ((text.dropWhile isBlank).reverse.takeWhile isBlank).reverse,
    fun c member => List.mem_takeWhile_imp member,
    fun c member => List.mem_takeWhile_imp (List.mem_reverse.mp member), ?_⟩
  unfold trim trimEnd trimStart
  rw [← List.reverse_append, List.takeWhile_append_dropWhile, List.reverse_reverse,
    List.takeWhile_append_dropWhile]

@[simp] theorem trim_trim (text : Text) : trim (trim text) = trim text := by
  obtain ⟨lead, trail, before, behind, whole⟩ := exists_around_trim text
  conv_rhs => rw [whole]
  exact (trim_around before behind (trim text)).symm

theorem mem_of_mem_trim (member : c ∈ trim text) : c ∈ text := by
  unfold trim trimEnd trimStart at member
  have inner := (List.dropWhile_suffix _).subset (List.mem_reverse.mp member)
  exact (List.dropWhile_suffix _).subset (List.mem_reverse.mp inner)

theorem trimmed_trim (some : trim text ≠ []) : Trimmed (trim text) :=
  ⟨some, trim_trim text⟩

theorem trimmed_of_isToken (token : isToken word = true) : Trimmed word := by
  obtain ⟨some, solid⟩ := isToken_iff.mp token
  refine ⟨some, trim_eq_self_iff.mpr ⟨fun c first => ?_, fun c last => ?_⟩⟩
  · exact solid c (List.mem_of_mem_head? first)
  · exact solid c (List.mem_of_mem_getLast? last)

private theorem Trimmed.around (first : Trimmed lead) (last : Trimmed trail) (between : Text) :
    Trimmed (lead ++ (between ++ trail)) := by
  obtain ⟨begun, front⟩ := first
  obtain ⟨ended, back⟩ := last
  refine ⟨by simp [begun], trim_eq_self_iff.mpr ⟨?_, ?_⟩⟩
  · obtain ⟨c, rest, rfl⟩ := List.exists_cons_of_ne_nil begun
    exact (trim_eq_self_iff.mp front).1
  · have ends := List.getLast?_eq_some_getLast ended
    rw [← List.append_assoc, List.getLast?_append, ends, Option.some_or, ← ends]
    exact (trim_eq_self_iff.mp back).2

/-- Parts that are trimmed make a trimmed text. -/
theorem Spaced.trimmed (spaced : Spaced parts text) (some : parts ≠ [])
    (trimmed : ∀ part ∈ parts, Trimmed part) : Trimmed text := by
  induction spaced with
  | nil => exact absurd rfl some
  | single part => exact trimmed part (by simp)
  | @cons part next gap text rest blank apart later ih =>
    exact (trimmed part (by simp)).around
      (ih (by simp) fun one member => trimmed one (by simp [member])) gap

theorem trimmed_joinWith (separator : Text) (some : parts ≠ [])
    (trimmed : ∀ part ∈ parts, Trimmed part) : Trimmed (joinWith separator parts) := by
  induction parts with
  | nil => exact absurd rfl some
  | cons part rest ih =>
    have first := trimmed part (by simp)
    cases rest with
    | nil => simpa [joinWith] using first
    | cons next rest =>
      rw [joinWith, List.intercalate_cons_cons, List.append_assoc]
      exact first.around (ih (by simp) fun one member => trimmed one (by simp [member])) separator

theorem head?_trim (first : ∀ c ∈ text.head?, isBlank c = false) (some : trim text ≠ []) :
    (trim text).head? = text.head? := by
  have front : trimStart text = text := (dropWhile_eq_self text).mpr first
  have back : trim text <+: text := by
    rw [trim, front, trimEnd, ← List.reverse_suffix, List.reverse_reverse]
    exact List.dropWhile_suffix _
  obtain ⟨rest, whole⟩ := back
  obtain ⟨c, tail, begun⟩ := List.exists_cons_of_ne_nil some
  rw [begun] at whole ⊢
  rw [← whole]
  rfl

theorem spaced_joinWith (parts : List Text) : Spaced parts (joinWith [' '] parts) := by
  induction parts with
  | nil => exact .nil
  | cons part rest ih =>
    cases rest with
    | nil => simpa [joinWith] using Spaced.single part
    | cons next rest =>
      rw [joinWith, List.intercalate_cons_cons]
      rw [List.append_assoc]
      exact .cons (by simp [Blank]; decide) (by simp) ih

/-! ### Words -/

theorem dropWhile_word (token : isToken word = true) (rest : Text) :
    (word ++ rest).dropWhile isBlank = word ++ rest := by
  obtain ⟨some, solid⟩ := isToken_iff.mp token
  obtain ⟨c, tail, rfl⟩ := List.exists_cons_of_ne_nil some
  rw [List.cons_append, List.dropWhile_cons, solid c List.mem_cons_self]
  rfl

theorem firstWord_token (token : isToken word = true) : firstWord word = (word, []) := by
  have solid : ∀ c ∈ word, (!isBlank c) = true := fun c member => by
    simp [(isToken_iff.mp token).2 c member]
  rw [firstWord, List.takeWhile_eq_self_iff.mpr solid, List.dropWhile_eq_nil_iff.mpr solid]
  rfl

theorem firstWord_append (token : isToken word = true) (blank : isBlank c = true) (rest : Text) :
    firstWord (word ++ c :: rest) = (word, rest) := by
  have solid : ∀ c ∈ word, (!isBlank c) = true := fun c member => by
    simp [(isToken_iff.mp token).2 c member]
  rw [firstWord, List.takeWhile_append_of_pos solid, List.dropWhile_append_of_pos solid]
  simp [blank]

theorem exists_firstWord (some : (firstWord text).2 ≠ []) :
    ∃ c, isBlank c = true ∧ text = (firstWord text).1 ++ c :: (firstWord text).2 := by
  have whole : text = text.takeWhile (fun c => !isBlank c) ++ text.dropWhile fun c => !isBlank c :=
    List.takeWhile_append_dropWhile.symm
  unfold firstWord at some ⊢
  dsimp only at some ⊢
  cases behind : text.dropWhile fun c => !isBlank c with
  | nil => simp [behind] at some
  | cons c rest =>
    rw [behind] at whole
    have first := List.head_dropWhile_not (fun c => !isBlank c)
      (by simp [behind] : text.dropWhile _ ≠ [])
    simp only [behind, List.head_cons] at first
    exact ⟨c, by simpa using first, by simpa using whole⟩

end ShaderBuild.Text
