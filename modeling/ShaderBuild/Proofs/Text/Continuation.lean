import ShaderBuild.Proofs.Directive.Openers
import ShaderBuild.Proofs.Text.Words
import ShaderBuild.Text.Lines
/-!
Lines joined by continuations, character by character: a line end becomes a continuation, the last
one is dropped. No two characters are brought together by it that open or close a marker.
-/
namespace ShaderBuild.Text

/-- What stands between two continued lines. -/
def lineJoint : Text :=
  " \\\n".toList

/-- What a character becomes, by the text after it. -/
def continueChar (c : Char) (after : Text) : Text :=
  if c = '\n' then if after.isEmpty then [] else lineJoint
  else if c = '\r' ∧ after.head? = some '\n' then []
  else [c]

/-- The text with its lines continued, where `after` follows it. -/
def continueBefore (after : Text) : Text → Text
  | [] => []
  | c :: rest => continueChar c (rest ++ after) ++ continueBefore after rest

theorem continueBefore_append (after first second : Text) :
    continueBefore after (first ++ second) =
      continueBefore (second ++ after) first ++ continueBefore after second := by
  induction first with
  | nil => rfl
  | cons c first ih => simp [continueBefore, ih]

private theorem splitOn_ne_nil (separator : Char) (text : Text) : splitOn separator text ≠ [] := by
  cases text with
  | nil => simp [splitOn]
  | cons c rest =>
    rw [splitOn]
    split
    · simp
    · split <;> simp

private theorem lines_feed (rest : Text) : lines ('\n' :: rest) = [] :: lines rest := by
  unfold lines
  rw [splitOn, if_pos rfl]
  cases pieces : splitOn '\n' rest with
  | nil => exact absurd pieces (splitOn_ne_nil _ _)
  | cons piece pieces => simp [closeLines, dropReturn]

private theorem lines_eq_nil {text : Text} (empty : lines text = []) : text = [] := by
  cases text with
  | nil => rfl
  | cons c rest =>
    by_cases feed : c = '\n'
    · simp [feed, lines_feed] at empty
    · exfalso
      unfold lines at empty
      rw [splitOn, if_neg feed] at empty
      cases pieces : splitOn '\n' rest with
      | nil => exact absurd pieces (splitOn_ne_nil _ _)
      | cons piece more => cases more <;> simp_all [closeLines]

private theorem lines_return_feed (rest : Text) :
    lines ('\r' :: '\n' :: rest) = lines ('\n' :: rest) := by
  unfold lines
  rw [splitOn, if_neg (by decide), splitOn, if_pos rfl]
  cases pieces : splitOn '\n' rest with
  | nil => exact absurd pieces (splitOn_ne_nil _ _)
  | cons piece pieces => simp [closeLines, dropReturn]

private theorem joinWith_lines_cons {c : Char} (rest : Text) (inner : c ≠ '\n')
    (kept : ¬(c = '\r' ∧ rest.head? = some '\n')) :
    joinWith lineJoint (lines (c :: rest)) = c :: joinWith lineJoint (lines rest) := by
  unfold lines joinWith
  rw [splitOn, if_neg inner]
  cases pieces : splitOn '\n' rest with
  | nil => exact absurd pieces (splitOn_ne_nil _ _)
  | cons piece more =>
    cases more with
    | nil => cases piece <;> simp [closeLines]
    | cons next more =>
      have same : dropReturn (c :: piece) = c :: dropReturn piece := by
        cases piece with
        | nil =>
          have ends : rest.head? = some '\n' := by
            cases rest with
            | nil => simp [splitOn] at pieces
            | cons d rest =>
              by_cases feed : d = '\n'
              · simp [feed]
              · rw [splitOn, if_neg feed] at pieces
                split at pieces <;> simp at pieces
          have other : c ≠ '\r' := fun same => kept ⟨same, ends⟩
          simp [dropReturn, other]
        | cons d piece =>
          unfold dropReturn
          rw [List.getLast?_cons_cons]
          split <;> rfl
      simp only [closeLines, same]
      exact List.intercalate_cons_cons_left

/-- Joining the lines of a text is one pass over its characters. -/
theorem joinWith_lines (text : Text) :
    joinWith lineJoint (lines text) = continueBefore [] text := by
  induction text with
  | nil => rfl
  | cons c rest ih =>
    rw [continueBefore, ← ih, List.append_nil, continueChar]
    by_cases feed : c = '\n'
    · subst feed
      rw [if_pos rfl, lines_feed]
      cases rest with
      | nil => rfl
      | cons next rest =>
        have some : lines (next :: rest) ≠ [] := fun none => by simpa using lines_eq_nil none
        rw [joinWith, List.intercalate_cons_of_ne_nil some]
        rfl
    rw [if_neg feed]
    by_cases dropped : c = '\r' ∧ rest.head? = some '\n'
    · rw [if_pos dropped]
      obtain ⟨rfl, next⟩ := dropped
      obtain ⟨rest, rfl⟩ : ∃ tail, rest = '\n' :: tail := by
        cases rest <;> simp_all
      rw [lines_return_feed, List.nil_append]
    · rw [if_neg dropped, joinWith_lines_cons rest feed dropped]
      rfl

theorem continueBefore_line {after text : Text} (single : '\n' ∉ text)
    (ends : ¬(text.getLast? = some '\r' ∧ after.head? = some '\n')) :
    continueBefore after text = text := by
  induction text with
  | nil => rfl
  | cons c rest ih =>
    have inner : c ≠ '\n' := fun same => single (by simp [same])
    have kept : ¬(c = '\r' ∧ (rest ++ after).head? = some '\n') := by
      cases rest with
      | nil => simpa using ends
      | cons next rest =>
        rintro ⟨_, feed⟩
        exact single (by simp_all)
    rw [continueBefore, continueChar, if_neg inner, if_neg kept, ih (fun later => single (by simp [later]))]
    · rfl
    · cases rest with
      | nil => simp
      | cons next rest => simpa [List.getLast?_cons_cons] using ends

private theorem words_continueBefore_line {after text : Text} (single : '\n' ∉ text) :
    words (continueBefore after text) = words text := by
  by_cases ends : text.getLast? = some '\r' ∧ after.head? = some '\n'
  · obtain ⟨last, feed⟩ := ends
    obtain ⟨front, rfl⟩ := List.getLast?_eq_some_iff.mp last
    have kept : continueBefore ('\r' :: after) front = front :=
      continueBefore_line (fun member => single (by simp [member])) (by simp)
    rw [continueBefore_append, List.singleton_append, kept, words_append front [] (by decide)]
    simp [continueBefore, continueChar, feed]
  · rw [continueBefore_line single ends]

private theorem words_continueBefore_feed {after front rest : Text} (some : after ≠ [])
    (single : '\n' ∉ front) :
    words (continueBefore after (front ++ '\n' :: rest)) =
      words front ++ ['\\'] :: words (continueBefore after rest) := by
  have joint : continueChar '\n' (rest ++ after) = ' ' :: ['\\'] ++ '\n' :: [] := by
    have follows : (rest ++ after).isEmpty = false := by simp [some]
    rw [continueChar, if_pos rfl, follows]
    rfl
  rw [continueBefore_append, continueBefore, joint]
  simp only [List.cons_append, List.nil_append]
  rw [words_append _ _ (by decide), words_continueBefore_line single]
  have alone := words_append ['\\'] (continueBefore after rest) (c := '\n') (by decide)
  have token : isToken ['\\'] = true := by decide
  rw [words_token token] at alone
  exact congrArg _ alone

theorem words_continueBefore {after text : Text} (some : after ≠ [])
    (changed : continueBefore after text ≠ text) (apart : after.head? ≠ Option.some '\n') :
    ∃ front rest, text = front ++ '\n' :: rest ∧
      words (continueBefore after text) =
        words front ++ ['\\'] :: words (continueBefore after rest) := by
  have split : '\n' ∈ text := by
    by_contra single
    exact changed (continueBefore_line single fun ends => apart ends.2)
  obtain ⟨front, rest, rfl, single⟩ := List.eq_append_cons_of_mem split
  exact ⟨front, rest, rfl, words_continueBefore_feed some single⟩

theorem words_continueBefore_eq_nil {after text : Text} (some : after ≠ [])
    (apart : after.head? ≠ Option.some '\n') (none : words (continueBefore after text) = []) :
    words text = [] := by
  by_cases same : continueBefore after text = text
  · rwa [same] at none
  · obtain ⟨front, rest, rfl, words⟩ := words_continueBefore some same apart
    simp [words] at none

private theorem head?_continueBefore {after text : Text} {c : Char} (solid : c ≠ ' ')
    (begins : (continueBefore after text).head? = some c) : text.head? = some c := by
  induction text with
  | nil => simp [continueBefore] at begins
  | cons first rest ih =>
    rw [continueBefore, continueChar] at begins
    split at begins
    · split at begins
      · rename_i empty
        obtain rfl : rest = [] := by simp_all
        simp [continueBefore] at begins
      · exact absurd (Option.some.inj begins).symm solid
    · split at begins
      · rename_i dropped
        rw [List.nil_append] at begins
        have next := ih begins
        cases rest with
        | nil => simp at next
        | cons feed rest =>
          obtain rfl : feed = '\n' := by simpa using dropped.2
          rw [continueBefore, continueChar, if_pos rfl] at begins
          split at begins
          · obtain rfl : rest = [] := by simp_all
            simp [continueBefore] at begins
          · exact absurd (Option.some.inj begins).symm solid
      · exact begins

/-- Characters that meet in a continued text met in the text. -/
theorem Meet.of_continueBefore {left right : Char} {after text : Text} (front : left ∉ lineJoint)
    (back : right ≠ ' ') (met : Meet left right (continueBefore after text)) :
    Meet left right text := by
  induction text with
  | nil => simp [continueBefore] at met
  | cons c rest ih =>
    rw [meet_cons]
    rw [continueBefore, meet_append] at met
    rcases met with own | later | ⟨last, first⟩
    · have inside : left ∈ continueChar c (rest ++ after) := own.subset (by simp)
      unfold continueChar at own inside
      split at own
      · split at own
        · simp at own
        · simp_all
      · split at own
        · simp at own
        · simp [meet_cons] at own
    · exact .inr (ih later)
    · left
      refine ⟨?_, head?_continueBefore back first⟩
      have inside := List.mem_of_getLast? last
      unfold continueChar at inside
      split at inside
      · split at inside
        · simp at inside
        · exact absurd inside front
      · split at inside
        · simp at inside
        · simpa using (List.mem_singleton.mp inside).symm

end ShaderBuild.Text
