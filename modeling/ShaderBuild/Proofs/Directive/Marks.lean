import ShaderBuild.Directive.Scan
import Mathlib.Tactic.Common
/-!
A text cut at its markers. `scan_flat` says what a scan makes of such a cutting when no closer was
overlooked, and `exists_legible` that every text has one.
-/
namespace ShaderBuild

/-- A character outside every marker, or a marker with what stands between its delimiters. -/
inductive Mark where
  | char (c : Char)
  | marker (kind : Char) (body : Text)
  deriving DecidableEq, Repr

namespace Mark

def text : Mark → Text
  | .char c => [c]
  | .marker kind body => '<' :: kind :: (body ++ [kind, '>'])

/-- The text of which the marks are the cutting. -/
def flat (marks : List Mark) : Text :=
  marks.flatMap text

@[simp] theorem flat_nil : flat [] = [] := rfl

@[simp] theorem flat_char (c : Char) (rest : List Mark) :
    flat (.char c :: rest) = c :: flat rest := rfl

@[simp] theorem flat_marker (kind : Char) (body : Text) (rest : List Mark) :
    flat (.marker kind body :: rest) =
      '<' :: kind :: (body ++ kind :: '>' :: flat rest) := by
  simp [flat, text]

@[simp] theorem flat_append (first second : List Mark) :
    flat (first ++ second) = flat first ++ flat second :=
  List.flatMap_append

@[simp] theorem flat_map_char (written : Text) : flat (written.map .char) = written := by
  induction written with
  | nil => rfl
  | cons c rest ih => simp [ih]

end Mark

namespace Scan

theorem opener?_eq_some_iff {text after : Text} {kind : Char} :
    opener? text = some (kind, after) ↔
      text = '<' :: kind :: after ∧ (kind = '@' ∨ kind = '!') := by
  unfold opener?
  split
  · simp only [Option.ite_none_right_eq_some, Option.some.injEq, Prod.mk.injEq, List.cons.injEq,
      true_and]
    constructor
    · rintro ⟨opens, rfl, rfl⟩
      exact ⟨⟨rfl, rfl⟩, opens⟩
    · rintro ⟨⟨rfl, rfl⟩, opens⟩
      exact ⟨opens, rfl, rfl⟩
  · rename_i other
    simp only [reduceCtorEq, false_iff, not_and]
    rintro rfl
    exact absurd rfl (other _ _)

theorem opener?_cons_eq_none_iff {c : Char} {rest : Text} :
    opener? (c :: rest) = none ↔ ¬(c = '<' ∧ (rest.head? = some '@' ∨ rest.head? = some '!')) := by
  cases rest with
  | nil => simp [opener?]
  | cons next rest =>
    by_cases left : c = '<'
    · subst left
      simp [opener?]
    · simp [opener?, left]

theorem closing?_append {kind : Char} {body : Text} (rest : Text) (proper : kind ≠ '>')
    (open_ : closing? kind body = none) :
    closing? kind (body ++ kind :: '>' :: rest) = some body := by
  induction body with
  | nil => simp [closing?]
  | cons c body ih =>
    cases body with
    | nil => simp [closing?, proper]
    | cons next body =>
      simp only [closing?] at open_
      split at open_
      · simp at open_
      · rename_i apart
        have rest := ih (Option.map_eq_none_iff.mp open_)
        simp only [List.cons_append] at rest ⊢
        simp [closing?, apart, rest]

theorem closing?_eq_some {kind : Char} {text body : Text} (found : closing? kind text = some body) :
    ∃ rest, text = body ++ kind :: '>' :: rest ∧ closing? kind body = none := by
  induction text generalizing body with
  | nil => simp [closing?] at found
  | cons c text ih =>
    cases text with
    | nil => simp [closing?] at found
    | cons next text =>
      simp only [closing?] at found
      split at found
      · rename_i closes
        obtain rfl := Option.some.inj found
        exact ⟨text, by simp [closes], rfl⟩
      · rename_i apart
        obtain ⟨inner, earlier, rfl⟩ := Option.map_eq_some_iff.mp found
        obtain ⟨rest, same, unclosed⟩ := ih earlier
        refine ⟨rest, by simp [same], ?_⟩
        cases inner with
        | nil => simp [closing?]
        | cons first inner =>
          have head : next = first := by
            simpa using congrArg List.head? same
          subst head
          simp [closing?, apart, unclosed]

theorem pieces_skip (offset : Nat) (passed rest : Text) :
    pieces offset passed.length (passed ++ rest) =
      pieces (offset + Text.byteLength passed) 0 rest := by
  induction passed generalizing offset with
  | nil => simp [Text.byteLength]
  | cons c passed ih =>
    simp only [List.length_cons, List.cons_append, pieces, ih, Text.byteLength, Nat.add_assoc]

end Scan

namespace Mark

/-- A scan of the text finds exactly these marks: an opener among the characters has no closer, and
a marker ends at the first one. -/
def Legible : List Mark → Prop
  | [] => True
  | .char c :: rest =>
    (∀ kind after, Scan.opener? (c :: flat rest) = some (kind, after) →
      Scan.closing? kind after = none) ∧ Legible rest
  | .marker kind body :: rest =>
    (kind = '@' ∨ kind = '!') ∧ Scan.closing? kind body = none ∧ Legible rest

/-- A marker as a scan finds it. -/
def Proper : Mark → Prop
  | .char _ => True
  | .marker kind body => (kind = '@' ∨ kind = '!') ∧ Scan.closing? kind body = none

theorem Legible.proper {marks : List Mark} (legible : Legible marks) :
    ∀ mark ∈ marks, Proper mark := by
  induction marks with
  | nil => simp
  | cons mark rest ih =>
    cases mark with
    | char c => simpa [Proper] using ih legible.2
    | marker kind body => simpa [Proper, legible.1, legible.2.1] using ih legible.2.2

theorem flat_eq_nil {marks : List Mark} (empty : flat marks = []) : marks = [] := by
  cases marks with
  | nil => rfl
  | cons mark rest => cases mark <;> simp at empty

theorem char_of_head? {marks : List Mark} {c : Char} (begins : (flat marks).head? = some c)
    (other : c ≠ '<') : ∃ rest, marks = .char c :: rest := by
  cases marks with
  | nil => simp at begins
  | cons mark rest =>
    cases mark with
    | char first => exact ⟨rest, by simpa using begins⟩
    | marker kind body => simp [other.symm] at begins

/-- What a scan reports of the marks of a text that starts at `offset`. -/
def pieces (offset : Nat) : List Mark → List Piece
  | [] => []
  | .char c :: rest =>
    (if (Scan.opener? (c :: flat rest)).isSome then [.stray offset] else [])
      ++ .char c :: pieces (offset + c.utf8Size) rest
  | .marker kind body :: rest =>
    .marker ⟨offset, text (.marker kind body), Scan.directive kind body⟩
      :: pieces (offset + Text.byteLength (text (.marker kind body))) rest

private theorem pieces_char (offset : Nat) {c : Char} (plain : c ≠ '<') (rest : List Mark) :
    pieces offset (.char c :: rest) = .char c :: pieces (offset + c.utf8Size) rest := by
  have closed : Scan.opener? (c :: flat rest) = none := by
    rw [Scan.opener?_cons_eq_none_iff]
    simp [plain]
  simp [pieces, closed]

theorem scanPieces_flat (offset : Nat) (marks : List Mark) (legible : Legible marks) :
    Scan.pieces offset 0 (flat marks) = pieces offset marks := by
  induction marks generalizing offset with
  | nil => rfl
  | cons mark rest ih =>
    cases mark with
    | char c =>
      obtain ⟨unclosed, legible⟩ := legible
      cases opened : Scan.opener? (c :: flat rest) with
      | none => simp [Scan.pieces, pieces, opened, ih _ legible]
      | some found =>
        obtain ⟨kind, after⟩ := found
        obtain ⟨same, isKind⟩ := Scan.opener?_eq_some_iff.mp opened
        obtain ⟨rfl, follows⟩ := List.cons.inj same
        have proper : kind ≠ '<' := by rcases isKind with rfl | rfl <;> decide
        -- The second character of the opener stands alone: no marker begins with it.
        obtain ⟨tail, rfl⟩ : ∃ tail, rest = .char kind :: tail := by
          cases rest with
          | nil => simp at follows
          | cons next tail =>
            cases next with
            | char other => exact ⟨tail, by simp_all⟩
            | marker other body => exact absurd (List.cons.inj follows).1.symm proper
        have later := ih (offset + '<'.utf8Size) legible
        rw [pieces_char _ proper, flat_char] at later
        have plain : Scan.opener? (kind :: flat tail) = none := by
          rw [Scan.opener?_cons_eq_none_iff]
          simp [proper]
        simp only [Scan.pieces, plain, List.cons.injEq, true_and] at later
        have unclosed := unclosed kind after opened
        simp only [pieces, opened, Option.isSome_some, if_true]
        simp only [flat_char, Scan.pieces]
        simp only [flat_char] at opened
        simp [opened, unclosed, later, plain]
    | marker kind body =>
      obtain ⟨isKind, unclosed, legible⟩ := legible
      have proper : kind ≠ '>' := by rcases isKind with rfl | rfl <;> decide
      have opened : Scan.opener? (flat (.marker kind body :: rest)) =
          some (kind, body ++ kind :: '>' :: flat rest) := by
        rw [Scan.opener?_eq_some_iff]
        exact ⟨by simp, isKind⟩
      -- The scan goes on behind the marker, whose characters it skips.
      have opens := Scan.pieces_skip (offset + '<'.utf8Size)
        (kind :: (body ++ [kind, '>'])) (flat rest)
      have length : (kind :: (body ++ [kind, '>'])).length = body.length + 3 := by simp
      rw [length] at opens
      simp only [flat_marker] at opened ⊢
      simp only [Scan.pieces, opened, Scan.closing?_append _ proper unclosed, pieces]
      have bytes : offset + Text.byteLength (text (.marker kind body)) =
          offset + '<'.utf8Size + Text.byteLength (kind :: (body ++ [kind, '>'])) := by
        simp [text, Text.byteLength, Nat.add_assoc]
      rw [← ih _ legible, bytes, ← opens]
      simp [text, Scan.pieces]

/-- A scan of a legible cutting reports its marks. -/
theorem scan_flat {marks : List Mark} (legible : Legible marks) :
    scan (flat marks) = pieces 0 marks :=
  scanPieces_flat 0 marks legible

/-- Every text can be cut at its markers. -/
theorem exists_legible (whole : Text) : ∃ marks, flat marks = whole ∧ Legible marks := by
  match whole with
  | [] => exact ⟨[], rfl, trivial⟩
  | c :: rest =>
    have single (unclosed : ∀ kind after, Scan.opener? (c :: rest) = some (kind, after) →
        Scan.closing? kind after = none) : ∃ marks, flat marks = c :: rest ∧ Legible marks := by
      obtain ⟨marks, same, legible⟩ := exists_legible rest
      exact ⟨.char c :: marks, by simp [same], by simpa [Legible, same] using ⟨unclosed, legible⟩⟩
    cases opened : Scan.opener? (c :: rest) with
    | none => exact single (by simp [opened])
    | some found =>
      obtain ⟨kind, after⟩ := found
      obtain ⟨same, isKind⟩ := Scan.opener?_eq_some_iff.mp opened
      cases closed : Scan.closing? kind after with
      | none => exact single (by simp_all)
      | some body =>
        obtain ⟨tail, rfl, unclosed⟩ := Scan.closing?_eq_some closed
        obtain ⟨marks, sameTail, legible⟩ := exists_legible tail
        exact ⟨.marker kind body :: marks, by simp [sameTail, same], isKind, unclosed, legible⟩
  termination_by whole.length
  decreasing_by
    · simp
    · simp [same]; omega

end Mark

end ShaderBuild
