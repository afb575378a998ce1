import ShaderBuild.Proofs.Text.Continuation
/-!
Markers whose lines are continued. A line end inside a marker puts a word of its own into the body,
and a directive with such a word is hardly ever one that a scan knows.
-/
namespace ShaderBuild

namespace Directive

open Text

variable {kind : Char} {body : Text}

/-- The body of a marker with its lines continued. -/
def continueBody (kind : Char) (body : Text) : Text :=
  continueBefore [kind] body

private theorem words_continueBody (isKind : kind = '@' ∨ kind = '!')
    (changed : continueBody kind body ≠ body) :
    ∃ front rest, words body = front ++ rest ∧
      (words (continueBody kind body) = front ++ [['\\']] ∧ rest = [] ∨
        ∃ more, more ≠ [] ∧ words (continueBody kind body) = front ++ ['\\'] :: more) := by
  have apart : [kind].head? ≠ some '\n' := by
    rcases isKind with rfl | rfl <;> decide
  obtain ⟨front, rest, rfl, split⟩ := words_continueBefore (by simp) changed apart
  refine ⟨words front, words rest, words_append front rest (by decide), ?_⟩
  cases more : words (continueBefore [kind] rest) with
  | nil => exact .inl ⟨by rw [continueBody, split, more], words_continueBefore_eq_nil (by simp) apart more⟩
  | cons word others => exact .inr ⟨word :: others, by simp, by rw [continueBody, split, more]⟩

theorem continueBody_of_single (isKind : kind = '@' ∨ kind = '!') {word : Text}
    (single : words (continueBody kind body) = [word]) (other : word ≠ ['\\']) :
    continueBody kind body = body := by
  by_contra changed
  obtain ⟨front, rest, _, ⟨words, _⟩ | ⟨more, some, words⟩⟩ := words_continueBody isKind changed
  · rw [words] at single
    cases front <;> simp_all
  · rw [words] at single
    cases front <;> simp_all

theorem continueBody_of_pair (isKind : kind = '@' ∨ kind = '!') {first second : Text}
    (pair : words (continueBody kind body) = [first, second]) (other : first ≠ ['\\']) :
    continueBody kind body = body ∨ (words body = [first] ∧ second = ['\\']) := by
  by_cases changed : continueBody kind body = body
  · exact .inl changed
  obtain ⟨front, rest, whole, ⟨words, none⟩ | ⟨more, some, words⟩⟩ := words_continueBody isKind changed
  · right
    rw [words] at pair
    subst none
    cases front with
    | nil => simp at pair
    | cons word front =>
      cases front with
      | nil => simp_all
      | cons next front => simp at pair
  · rw [words] at pair
    cases front with
    | nil => simp_all
    | cons word front => cases front <;> simp_all

theorem words_continueBody_cons (isKind : kind = '@' ∨ kind = '!') {word : Text} {rest : List Text}
    (begun : words body = word :: rest) :
    ∃ first others, words (continueBody kind body) = first :: others ∧
      (first = word ∨ first = ['\\']) := by
  by_cases changed : continueBody kind body = body
  · exact ⟨word, rest, by rw [changed, begun], .inl rfl⟩
  obtain ⟨front, later, whole, ⟨words, _⟩ | ⟨more, _, words⟩⟩ := words_continueBody isKind changed
  all_goals
    rw [begun] at whole
    cases front with
    | nil => exact ⟨_, _, words, .inr rfl⟩
    | cons head front => exact ⟨_, _, words, .inl (List.cons.inj whole).1.symm⟩

theorem include_of_continueBody {name : Text} (isKind : kind = '@' ∨ kind = '!')
    (named : words body ≠ ["include".toList])
    (read : parse (continueBody kind body) = .include name) : parse body = .include name := by
  rcases continueBody_of_pair isKind (words_include read) (by decide) with same | ⟨bare, _⟩
  · rwa [same] at read
  · exact absurd bare named

theorem define_of_continueBody {name : Text} (isKind : kind = '@' ∨ kind = '!')
    (other : name ≠ ['\\']) (read : parse (continueBody kind body) = .define name) :
    parse body = .define name := by
  rcases continueBody_of_pair isKind (words_define read) (by decide) with same | ⟨_, joint⟩
  · rwa [same] at read
  · exact absurd joint other

theorem functionEnd_of_continueBody (isKind : kind = '@' ∨ kind = '!')
    (read : parse (continueBody kind body) = .functionEnd) : parse body = .functionEnd := by
  rwa [continueBody_of_single isKind (words_functionEnd read) (by decide)] at read

end Directive

namespace Mark

open Text

/-- The marks of a text whose lines are continued. -/
def continued : List Mark → List Mark
  | [] => []
  | .char c :: rest => (continueChar c (flat rest)).map .char ++ continued rest
  | .marker kind body :: rest => .marker kind (Directive.continueBody kind body) :: continued rest

private theorem continueBefore_congr {first second : Text} (same : first.head? = second.head?)
    (text : Text) : continueBefore first text = continueBefore second text := by
  induction text with
  | nil => rfl
  | cons c rest ih =>
    have heads : (rest ++ first).head? = (rest ++ second).head? := by
      cases rest <;> simp [same]
    have empties : (rest ++ first).isEmpty = (rest ++ second).isEmpty := by
      cases rest with
      | nil => cases first <;> cases second <;> simp_all
      | cons => rfl
    simp only [continueBefore, continueChar, ih, heads, empties]

private theorem continueChar_inner {c : Char} (inner : c ≠ '\n' ∧ c ≠ '\r') (after : Text) :
    continueChar c after = [c] := by
  simp [continueChar, inner]

theorem flat_continued {marks : List Mark} (proper : ∀ mark ∈ marks, Proper mark) :
    flat (continued marks) = continueBefore [] (flat marks) := by
  induction marks with
  | nil => rfl
  | cons mark rest ih =>
    have later := ih fun mark member => proper mark (by simp [member])
    cases mark with
    | char c => simp [continued, continueBefore, later]
    | marker kind body =>
      have isKind := (proper (.marker kind body) (by simp)).1
      have inner : kind ≠ '\n' ∧ kind ≠ '\r' := by rcases isKind with rfl | rfl <;> decide
      have heads : (kind :: '>' :: flat rest).head? = [kind].head? := rfl
      have inside := continueBefore_congr heads body
      simp [continued, continueBefore, continueBefore_append, continueChar_inner, inner, inside, later,
        Directive.continueBody]

theorem closing?_continueBody {kind : Char} {body : Text} (isKind : kind = '@' ∨ kind = '!')
    (unclosed : Scan.closing? kind body = none) :
    Scan.closing? kind (Directive.continueBody kind body) = none := by
  rw [Scan.closing?_eq_none_iff] at unclosed ⊢
  refine fun met => unclosed (met.of_continueBefore ?_ (by decide))
  rcases isKind with rfl | rfl <;> decide

theorem proper_continued {marks : List Mark} (proper : ∀ mark ∈ marks, Proper mark) :
    ∀ mark ∈ continued marks, Proper mark := by
  induction marks with
  | nil => simp [continued]
  | cons mark rest ih =>
    have later := ih fun mark member => proper mark (by simp [member])
    intro found member
    cases mark with
    | char c =>
      rcases List.mem_append.mp member with own | other
      · obtain ⟨c, _, rfl⟩ := List.mem_map.mp own
        trivial
      · exact later found other
    | marker kind body =>
      have own := proper (.marker kind body) (by simp)
      rcases List.mem_cons.mp member with rfl | other
      · exact ⟨own.1, closing?_continueBody own.1 own.2⟩
      · exact later found other

theorem leftover?_continueBody {kind : Char} {body : Text} (closed : leftover? body = none) :
    leftover? (Directive.continueBody kind body) = none := by
  rw [leftover?_eq_none_iff] at closed ⊢
  exact ⟨fun met => closed.1 (met.of_continueBefore (by decide) (by decide)),
    fun met => closed.2 (met.of_continueBefore (by decide) (by decide))⟩

end Mark

end ShaderBuild
