import ShaderBuild.Expansion.Replace
import ShaderBuild.Proofs.Expansion.Exposure
/-!
Replacing markers, on the marks of a text. The result reads again as its marks when they stand
apart: no replacement brings an opener about.
-/
namespace ShaderBuild

namespace Mark

/-- What stands for a mark when markers are replaced. -/
def rewrite (replace : Directive → Option Text) : Mark → List Mark
  | .char c => [.char c]
  | .marker kind body =>
    match replace (Scan.directive kind body) with
    | some line => line.map .char
    | none => [.marker kind body]

private theorem replacePieces_pieces (replace : Directive → Option Text) (offset : Nat)
    (marks : List Mark) :
    (replacePieces Piece.notice (fun found => pure (replace found.directive))
      (pieces offset marks) : Logged Text).value = flat (marks.flatMap (rewrite replace)) := by
  induction marks generalizing offset with
  | nil => rfl
  | cons mark rest ih =>
    cases mark with
    | char c =>
      rw [pieces]
      split <;> simp [replacePieces, ih, rewrite, Piece.text]
    | marker kind body =>
      rw [pieces]
      have later := ih (offset + Text.byteLength (text (.marker kind body)))
      cases replaced : replace (Scan.directive kind body) with
      | none =>
        simp [replacePieces, rewrite, replaced, later]
        simp [text]
      | some line => simp [replacePieces, rewrite, replaced, later]

theorem replaceMarkers_flat (replace : Directive → Option Text) {marks : List Mark}
    (legible : Legible marks) :
    (replaceMarkers replace (flat marks)).value = flat (marks.flatMap (rewrite replace)) := by
  rw [replaceMarkers, scan_flat legible]
  exact replacePieces_pieces replace 0 marks

/-- No opener stands among the characters between the markers. -/
def Plain : List Mark → Prop
  | [] => True
  | .char c :: rest => (c = '<' → ¬Opening (flat rest).head?) ∧ Plain rest
  | .marker _ _ :: rest => Plain rest

theorem Plain.legible {marks : List Mark} (plain : Plain marks)
    (proper : ∀ mark ∈ marks, Proper mark) : Legible marks := by
  induction marks with
  | nil => trivial
  | cons mark rest ih =>
    have others : ∀ mark ∈ rest, Proper mark := fun mark member => proper mark (by simp [member])
    cases mark with
    | char c =>
      have closed : Scan.opener? (c :: flat rest) = none :=
        Scan.opener?_cons_eq_none_iff.mpr fun opens => plain.1 opens.1 opens.2
      exact ⟨by simp [closed], ih plain.2 others⟩
    | marker kind body =>
      have own := proper (.marker kind body) (by simp)
      exact ⟨own.1, own.2, ih plain others⟩

/-- What a replacement is for a text to stay plain: a comment vanishes, and a line opens nothing and
begins with a sign. -/
def Tame (replace : Directive → Option Text) : Mark → Prop
  | .char _ => True
  | .marker kind body => ∀ line, replace (Scan.directive kind body) = some line →
    (line = [] ∧ Scan.directive kind body = .comment) ∨
      (line.head? = some '#' ∧ leftover? line = none ∧
        (Scan.directive kind body).native? = some line)

/-- A second character of a delimiter that stands first after the replacement was exposed. -/
theorem exposed_of_head? {replace : Directive → Option Text} {marks : List Mark}
    (tame : ∀ mark ∈ marks, Tame replace mark) {c : Char} (trails : Trailing c)
    (first : (flat (marks.flatMap (rewrite replace))).head? = some c) : exposed marks = some c := by
  induction marks with
  | nil => exact first
  | cons mark rest ih =>
    have others : ∀ mark ∈ rest, Tame replace mark := fun mark member => tame mark (by simp [member])
    cases mark with
    | char own =>
      obtain rfl : own = c := by simpa [rewrite] using first
      simp [exposed, trails.inner]
    | marker kind body =>
      have own := tame (.marker kind body) (by simp)
      have plain : c ≠ '<' ∧ c ≠ '#' := by rcases trails with rfl | rfl | rfl <;> decide
      rw [List.flatMap_cons, flat_append, rewrite] at first
      cases replaced : replace (Scan.directive kind body) with
      | none =>
        rw [replaced] at first
        exact absurd (by simpa using first) plain.1.symm
      | some line =>
        rw [replaced] at first
        rcases own line replaced with ⟨rfl, comment⟩ | ⟨sign, _, _⟩
        · simpa [exposed, comment] using ih others (by simpa using first)
        · simp only [flat_map_char, List.head?_append, sign, Option.some_or, Option.some.injEq] at first
          exact absurd first plain.2.symm

private theorem plain_chars {text : Text} {rest : List Mark} (closed : leftover? text = none)
    (last : text.getLast? = some '<' → ¬Opening (flat rest).head?) (plain : Plain rest) :
    Plain (text.map .char ++ rest) := by
  induction text with
  | nil => exact plain
  | cons c text ih =>
    rw [leftover?_eq_none_iff, Text.meet_cons, Text.meet_cons] at closed
    have later : leftover? text = none := leftover?_eq_none_iff.mpr (by tauto)
    cases text with
    | nil => exact ⟨fun angle => last (by simp [angle]), plain⟩
    | cons next text =>
      refine ⟨?_, ih later (by simpa [List.getLast?_cons_cons] using last)⟩
      rintro rfl opening
      rcases opening with same | same <;> simp at same <;> simp [same] at closed

/-- Marks that stand apart are plain after their markers are replaced. -/
theorem Apart.plain {replace : Directive → Option Text} {marks : List Mark} (apart : Apart marks)
    (tame : ∀ mark ∈ marks, Tame replace mark) : Plain (marks.flatMap (rewrite replace)) := by
  induction marks with
  | nil => trivial
  | cons mark rest ih =>
    have others : ∀ mark ∈ rest, Tame replace mark := fun mark member => tame mark (by simp [member])
    have later := ih apart.2 others
    have hidden : mark.ending? = some '<' →
        ¬Opening (flat (rest.flatMap (rewrite replace))).head? := by
      refine fun last opening => apart.1 last (opening.imp ?_ ?_)
      · exact exposed_of_head? others (.inl rfl)
      · exact exposed_of_head? others (.inr (.inl rfl))
    cases mark with
    | char c => exact ⟨fun angle => hidden (by simp [ending?, angle]), later⟩
    | marker kind body =>
      have own := tame (.marker kind body) (by simp)
      rw [List.flatMap_cons, rewrite]
      cases replaced : replace (Scan.directive kind body) with
      | none => exact later
      | some line =>
        rcases own line replaced with ⟨rfl, _⟩ | ⟨_, closed, native⟩
        · exact later
        · refine plain_chars closed (fun last => hidden ?_) later
          simpa [ending?, native] using last

theorem proper_rewrite {replace : Directive → Option Text} {marks : List Mark}
    (proper : ∀ mark ∈ marks, Proper mark) :
    ∀ mark ∈ marks.flatMap (rewrite replace), Proper mark := by
  intro mark member
  obtain ⟨old, present, made⟩ := List.mem_flatMap.mp member
  cases old with
  | char c =>
    obtain rfl := List.mem_singleton.mp made
    trivial
  | marker kind body =>
    rw [rewrite] at made
    split at made
    · obtain ⟨c, _, rfl⟩ := List.mem_map.mp made
      trivial
    · obtain rfl := List.mem_singleton.mp made
      exact proper _ present

theorem not_mem_of_leftover? {marks : List Mark} {kind : Char} {body : Text}
    (closed : leftover? (flat marks) = none) (isKind : kind = '@' ∨ kind = '!') :
    .marker kind body ∉ marks := by
  intro member
  have within : text (.marker kind body) <:+: flat marks :=
    List.infix_of_mem_flatten (List.mem_map_of_mem member)
  have met : Text.Meet '<' kind (flat marks) :=
    Text.Meet.of_isInfix within (by simp [text, Text.meet_cons])
  rw [leftover?_eq_none_iff] at closed
  rcases isKind with rfl | rfl
  · exact closed.1 met
  · exact closed.2 met

end Mark

end ShaderBuild
