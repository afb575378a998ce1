import ShaderBuild.Path.Basic
import ShaderBuild.Proofs.Text.Split
import Mathlib.Data.List.TakeDrop
import Mathlib.Data.List.TakeWhile
import Mathlib.Tactic.Common
/-!
Paths whose file name gets another extension: the directory part stays, and the name is never the same
when the extension has a dot of its own.
-/
namespace ShaderBuild.Path

variable {path : Path} {base name before after : Text} {extension : String}

/-- A directory part is empty or has a slash at its end. -/
def IsBase (base : Text) : Prop :=
  base = [] ∨ ∃ front, base = front ++ ['/']

/-- The path is a directory part and a last part, which may be `..`, behind it. -/
structure Ends (path : Path) (base name : Text) : Prop where
  text : path.text = base ++ name
  base : IsBase base
  whole : '/' ∉ name
  solid : isFiller name = false

theorem exists_base (text : Text) : ∃ base name : Text, text = base ++ name ∧ IsBase base ∧
    '/' ∉ name := by
  by_cases slash : '/' ∈ text
  · obtain ⟨front, name, rfl, apart⟩ := Text.exists_last slash
    exact ⟨front ++ ['/'], name, by simp, .inr ⟨front, rfl⟩, apart⟩
  · exact ⟨[], text, rfl, .inl rfl, slash⟩

private theorem IsBase.tail {c : Char} (is : IsBase (c :: base)) : IsBase base := by
  rcases is with empty | ⟨front, slash⟩
  · cases empty
  · cases front with
    | nil => exact .inl (List.cons.inj slash).2
    | cons _ front => exact .inr ⟨front, (List.cons.inj slash).2⟩

/-- Whatever stands behind a directory part is the last piece. -/
theorem IsBase.splitOn (is : IsBase base) : ∃ front, ∀ name : Text, '/' ∉ name →
    Text.splitOn '/' (base ++ name) = front ++ [name] := by
  rcases is with rfl | ⟨front, rfl⟩
  · exact ⟨[], fun name whole => Text.splitOn_piece whole⟩
  · refine ⟨Text.splitOn '/' front, fun name whole => ?_⟩
    rw [List.append_assoc, List.singleton_append, Text.splitOn_append, Text.splitOn_piece whole]

theorem parts_eq (path : Path) : ∃ rest, path.parts.2 = Text.splitOn '/' rest ∧
    path.text = path.parts.1 ++ rest ∧ (path.parts.1 = [] ∨ path.parts.1 = ['/'] ∨
      path.parts.1 = ['.'] ∧ (rest = [] ∨ rest.head? = some '/')) := by
  unfold parts
  split
  · rename_i rest begins
    exact ⟨rest, rfl, begins, .inr (.inl rfl)⟩
  · rename_i rest begins
    split
    · rename_i dot
      exact ⟨rest, rfl, begins, .inr (.inr ⟨rfl, by simpa using dot⟩)⟩
    · exact ⟨_, rfl, begins, .inl rfl⟩
  · exact ⟨_, rfl, rfl, .inl rfl⟩

private theorem Ends.base_eq (ends : path.Ends base name) : ∃ inner, IsBase inner ∧
    base = path.parts.1 ++ inner ∧ path.parts.2 = Text.splitOn '/' (inner ++ name) := by
  obtain ⟨rest, pieces, text, begins⟩ := parts_eq path
  suffices ∃ inner, IsBase inner ∧ base = path.parts.1 ++ inner ∧ rest = inner ++ name by
    obtain ⟨inner, is, own, rfl⟩ := this
    exact ⟨inner, is, own, pieces⟩
  rw [ends.text] at text
  rcases begins with none | root | ⟨dot, follows⟩
  · rw [none] at text ⊢
    exact ⟨base, ends.base, rfl, text.symm⟩
  · rw [root] at text ⊢
    cases base with
    | nil =>
      obtain rfl : name = '/' :: rest := text
      exact absurd List.mem_cons_self ends.whole
    | cons c inner =>
      obtain ⟨rfl, same⟩ := List.cons.inj text
      exact ⟨inner, ends.base.tail, rfl, same.symm⟩
  · rw [dot] at text ⊢
    cases base with
    | nil =>
      obtain rfl : name = '.' :: rest := text
      rcases follows with rfl | slash
      · exact absurd ends.solid (by simp [isFiller])
      · exact absurd (List.mem_cons_of_mem _ (List.mem_of_mem_head? slash)) ends.whole
    | cons c inner =>
      obtain ⟨rfl, same⟩ := List.cons.inj text
      exact ⟨inner, ends.base.tail, rfl, same.symm⟩

theorem Ends.lastPart? (ends : path.Ends base name) : ∃ front,
    path.lastPart? = some (front, name) ∧ ∀ other : Text, '/' ∉ other →
      path.parts.1 ++ Text.joinWith ['/'] (front ++ [other]) = base ++ other := by
  obtain ⟨inner, is, rfl, pieces⟩ := ends.base_eq
  obtain ⟨front, splits⟩ := is.splitOn
  refine ⟨front, ?_, fun other whole => ?_⟩
  · rw [Path.lastPart?, pieces, splits name ends.whole, List.reverse_append, List.reverse_singleton,
      List.singleton_append, List.dropWhile_cons_of_neg (by simp [ends.solid])]
    simp
  · rw [← splits other whole, Text.joinWith_splitOn, List.append_assoc]

theorem cutName_dot (before : Text) (apart : '.' ∉ after) : cutName (before ++ '.' :: after) =
    if before.isEmpty then ('.' :: after, none) else (before, some after) := by
  have late : ((before ++ '.' :: after).reverse.takeWhile (· != '.')).reverse = after := by
    have inside : ∀ c ∈ after.reverse, (c != '.') = true := by
      intro c member
      simpa using fun same : c = '.' => apart (same ▸ List.mem_reverse.mp member)
    rw [List.reverse_append, List.reverse_cons, List.append_assoc, List.singleton_append,
      List.takeWhile_append_of_pos inside]
    simp
  have early : (before ++ '.' :: after).take ((before ++ '.' :: after).length - after.length - 1) =
      before := by
    rw [List.take_append_of_le_length (by simp; omega), List.take_of_length_le (by simp; omega)]
  unfold cutName
  dsimp only
  rw [late, early]
  cases before <;> rfl

theorem cutName_plain (plain : '.' ∉ name) : cutName name = (name, none) := by
  have late : (name.reverse.takeWhile (· != '.')).reverse = name := by
    rw [List.takeWhile_eq_self_iff.mpr, List.reverse_reverse]
    intro c member
    simpa using fun same : c = '.' => plain (same ▸ List.mem_reverse.mp member)
  unfold cutName
  dsimp only
  rw [late]
  simp

theorem cutName_cases (name : Text) :
    cutName name = (name, none) ∨ ∃ before after, cutName name = (before, some after) ∧
      name = before ++ '.' :: after ∧ before ≠ [] ∧ '.' ∉ after := by
  by_cases dot : '.' ∈ name
  · obtain ⟨before, after, rfl, apart⟩ := Text.exists_last dot
    rw [cutName_dot before apart]
    by_cases empty : before = []
    · subst empty
      exact .inl rfl
    · exact .inr ⟨before, after, if_neg (by simpa using empty), rfl, empty, apart⟩
  · exact .inl (cutName_plain dot)

theorem not_mem_cutName (whole : '/' ∉ name) : '/' ∉ (cutName name).1 := by
  rcases cutName_cases name with same | ⟨before, after, cut, same, _⟩
  · rwa [same]
  · rw [cut]
    rw [same] at whole
    exact fun member => whole (List.mem_append_left _ member)

theorem Ends.putExtension (ends : path.Ends base name) (proper : name ≠ ['.', '.'])
    (extension : String) : (path.putExtension extension).text =
      base ++ (cutName name).1 ++ '.' :: extension.toList := by
  obtain ⟨front, last, puts⟩ := ends.lastPart?
  unfold Path.putExtension
  rw [last]
  dsimp only
  rw [if_neg (by simpa using proper), puts _ (not_mem_cutName ends.whole)]

theorem Ends.putExtension_up (ends : path.Ends base ['.', '.']) :
    path.putExtension extension = path := by
  obtain ⟨front, last, _⟩ := ends.lastPart?
  unfold Path.putExtension
  rw [last]
  rfl

theorem Ends.extension? (ends : path.Ends base name) (proper : name ≠ ['.', '.']) :
    path.extension? = (cutName name).2 := by
  obtain ⟨front, last, _⟩ := ends.lastPart?
  rw [Path.extension?, fileName?, last]
  dsimp only
  rw [if_neg (by simpa using proper), Option.bind_some]

private theorem Ends.withExtension_dot (ends : path.Ends base (before ++ '.' :: after))
    (proper : before ++ '.' :: after ≠ ['.', '.']) (some : before ≠ []) (apart : '.' ∉ after)
    (extension : String) :
    path.withExtension extension = Path.putExtension ⟨base ++ (before ++ ['.'])⟩ extension ∧
      Ends ⟨base ++ (before ++ ['.'])⟩ base (before ++ ['.']) := by
  constructor
  · have cut := cutName_dot before apart
    rw [if_neg (by simpa using some)] at cut
    have whole : path.text = base ++ (before ++ ['.']) ++ after := by simp [ends.text]
    unfold Path.withExtension
    rw [ends.extension? proper, cut]
    dsimp only
    rw [whole, List.length_append, Nat.add_sub_cancel, List.take_left]
  · have whole := ends.whole
    exact ⟨rfl, ends.base, by simp_all, by simp [isFiller, some]⟩

theorem Ends.withExtension_up (ends : path.Ends base ('.' :: '.' :: after)) (some : after ≠ [])
    (apart : '.' ∉ after) (extension : String) :
    (path.withExtension extension).text = base ++ ['.', '.'] := by
  have dotted : path.Ends base (['.'] ++ '.' :: after) := ends
  obtain ⟨puts, again⟩ := dotted.withExtension_dot (by simpa using some) (by simp) apart extension
  rw [puts, again.putExtension_up]
  rfl

theorem Ends.withExtension_kept (ends : path.Ends base name)
    (kept : ∀ after : Text, '.' ∉ after → name ≠ '.' :: '.' :: after) (extension : String) :
    (path.withExtension extension).text = base ++ (cutName name).1 ++ '.' :: extension.toList := by
  have proper : name ≠ ['.', '.'] := kept [] (by simp)
  rcases cutName_cases name with same | ⟨before, after, cut, rfl, some, apart⟩
  · have puts := ends.putExtension proper extension
    rw [same] at puts ⊢
    unfold Path.withExtension
    rw [ends.extension? proper, same]
    exact puts
  · obtain ⟨puts, again⟩ := ends.withExtension_dot proper some apart extension
    have properToo : before ++ ['.'] ≠ ['.', '.'] := by
      intro equal
      obtain rfl : before = ['.'] := List.append_cancel_right equal
      exact kept after apart rfl
    have cutToo := cutName_dot before (by simp : '.' ∉ ([] : Text))
    rw [if_neg (by simpa using some)] at cutToo
    rw [puts, again.putExtension properToo, cutToo, cut]

theorem Ends.withExtension (ends : path.Ends base name) (proper : name ≠ ['.', '.'])
    (extension : String) :
    (path.withExtension extension).text = base ++ (cutName name).1 ++ '.' :: extension.toList ∨
      (path.withExtension extension).text = base ++ ['.', '.'] := by
  by_cases up : ∃ after : Text, '.' ∉ after ∧ name = '.' :: '.' :: after
  · obtain ⟨after, apart, rfl⟩ := up
    exact .inr (ends.withExtension_up (by simpa using proper) apart extension)
  · exact .inl (ends.withExtension_kept (fun after apart same => up ⟨after, apart, same⟩) extension)

theorem ne_cutName {extension : Text} (name : Text) (dotted : '.' ∈ extension) :
    (cutName name).1 ++ '.' :: extension ≠ name := by
  intro same
  rcases cutName_cases name with whole | ⟨before, after, cut, text, _, apart⟩
  · rw [whole] at same
    simpa using congrArg List.length same
  · rw [cut, text, List.append_cancel_left_eq, List.cons.injEq] at same
    exact apart (same.2 ▸ dotted)

end ShaderBuild.Path
