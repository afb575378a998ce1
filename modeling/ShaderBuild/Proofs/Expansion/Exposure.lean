import ShaderBuild.Proofs.Directive.Continued
/-!
Which character comes to stand behind a `<` when the marks between them vanish. An expansion takes
out comments and ends of function blocks, and the last line end of a block.
-/
namespace ShaderBuild.Mark

/-- The marks are line ends up to the end of a function block. -/
def closes : List Mark → Bool
  | [] => false
  | .char c :: rest => (c = '\n' || c = '\r') && closes rest
  | .marker kind body :: _ => Scan.directive kind body = .functionEnd

/-- The first character that does not vanish, unless a marker that stays or becomes a native line
stands before it. -/
def exposed : List Mark → Option Char
  | [] => none
  | .char c :: rest =>
    if (c = '\n' || c = '\r') && closes rest then exposed rest else some c
  | .marker kind body :: rest =>
    if Scan.directive kind body = .comment ∨ Scan.directive kind body = .functionEnd then
      exposed rest
    else none

/-- The character makes an opener of a `<` before it. -/
def Opening (c : Option Char) : Prop :=
  c = some '@' ∨ c = some '!'

instance (c : Option Char) : Decidable (Opening c) :=
  inferInstanceAs (Decidable (c = some '@' ∨ c = some '!'))

theorem opening_iff {c : Option Char} :
    Opening c ↔ ∃ kind, (kind = '@' ∨ kind = '!') ∧ c = some kind := by
  simp [Opening, or_and_right, exists_or]

/-- The last character that is written for a mark, as far as it is not part of a marker. -/
def ending? : Mark → Option Char
  | .char c => some c
  | .marker kind body => (Scan.directive kind body).native?.bind List.getLast?

/-- No `<` outside the markers comes to stand before a character that makes an opener of it. -/
def Apart : List Mark → Prop
  | [] => True
  | mark :: rest => (mark.ending? = some '<' → ¬Opening (exposed rest)) ∧ Apart rest

/-- The character is the second of a delimiter. -/
def Trailing (c : Char) : Prop :=
  c = '@' ∨ c = '!' ∨ c = '>'

instance (c : Char) : Decidable (Trailing c) :=
  inferInstanceAs (Decidable (c = '@' ∨ c = '!' ∨ c = '>'))

/-- The character is the first of a delimiter. -/
def Leading (c : Char) : Prop :=
  c = '<' ∨ c = '@' ∨ c = '!'

theorem Trailing.inner {c : Char} (trails : Trailing c) : ¬(c = '\n' ∨ c = '\r') := by
  rcases trails with rfl | rfl | rfl <;> decide

/-- What is exposed after a change was exposed before it. -/
structure Covers (before after : List Mark) : Prop where
  closes : closes after = true → closes before = true
  exposed : ∀ c, Trailing c → exposed after = some c → exposed before = some c

namespace Covers

variable {before after : List Mark}

theorem opening (covers : Covers before after) (opening : Opening (Mark.exposed after)) :
    Opening (Mark.exposed before) := by
  rcases opening with same | same
  · exact .inl (covers.exposed _ (.inl rfl) same)
  · exact .inr (covers.exposed _ (.inr (.inl rfl)) same)

theorem refl (marks : List Mark) : Covers marks marks :=
  ⟨id, fun _ _ => id⟩

theorem cons (mark : Mark) (covers : Covers before after) :
    Covers (mark :: before) (mark :: after) := by
  cases mark with
  | char c =>
    constructor
    · simp only [Mark.closes, Bool.and_eq_true]
      exact And.imp_right covers.closes
    · intro other trails
      simp only [Mark.exposed]
      by_cases breaks : (c = '\n' || c = '\r') = true
      · have apart : c ≠ other := fun same => trails.inner (same ▸ by simpa using breaks)
        by_cases closed : Mark.closes after = true
        · simpa [breaks, closed, covers.closes closed] using covers.exposed other trails
        · simp [breaks, closed, apart]
      · simp [breaks]
  | marker kind body =>
    refine ⟨id, fun other trails => ?_⟩
    simp only [Mark.exposed]
    split
    · exact covers.exposed other trails
    · exact id

theorem of_char {c : Char} (inner : c ≠ '\n' ∧ c ≠ '\r') (plain : ¬Trailing c)
    (before after : List Mark) : Covers before (.char c :: after) := by
  constructor
  · simp [Mark.closes, inner]
  · rintro other trails same
    simp only [Mark.exposed, inner, decide_false, Bool.false_or, Bool.false_and, Bool.false_eq_true,
      if_false, Option.some.injEq] at same
    exact absurd (same ▸ trails) plain

end Covers

theorem directive_eq_comment {kind : Char} {body : Text} :
    Scan.directive kind body = .comment ↔ kind = '!' := by
  unfold Scan.directive
  split
  · simp_all
  · rename_i other
    simp only [other, iff_false]
    intro comment
    have known := (Directive.makes_of_parse comment (by simp)).keyword?
    cases known

private theorem vanishes_of_continueBody {kind : Char} {body : Text}
    (isKind : kind = '@' ∨ kind = '!')
    (vanishes : Scan.directive kind (Directive.continueBody kind body) = .comment ∨
      Scan.directive kind (Directive.continueBody kind body) = .functionEnd) :
    Scan.directive kind body = .comment ∨ Scan.directive kind body = .functionEnd := by
  rcases vanishes with comment | ends
  · exact .inl (directive_eq_comment.mpr (directive_eq_comment.mp comment))
  · right
    unfold Scan.directive at ends ⊢
    split at ends
    · simp at ends
    · rename_i other
      rw [if_neg other]
      exact Directive.functionEnd_of_continueBody isKind ends

/-- Continuing the lines of a block and taking out its end exposes nothing new. -/
theorem Covers.continued {front before after : List Mark} {kind : Char} {body : Text}
    (ends : Scan.directive kind body = .functionEnd) (proper : ∀ mark ∈ front, Proper mark)
    (covers : Covers before after) :
    Covers (front ++ .marker kind body :: before) (Mark.continued front ++ after) := by
  have bare : Covers (.marker kind body :: before) after :=
    ⟨fun _ => by simp [Mark.closes, ends], by simpa [Mark.exposed, ends] using covers.exposed⟩
  -- A line end before the end of the block vanishes with it; every other one leaves a blank.
  have feed (rest : List Mark) : Covers (.char '\n' :: (rest ++ .marker kind body :: before))
      (Mark.continued (.char '\n' :: rest) ++ after) := by
    cases rest with
    | nil =>
      exact ⟨fun _ => by simp [Mark.closes, ends],
        by simpa [Mark.exposed, Mark.closes, Mark.continued, Text.continueChar, ends] using covers.exposed⟩
    | cons next rest =>
      have some : flat (next :: rest) ≠ [] := fun empty => by simpa using flat_eq_nil empty
      have joint : Text.continueChar '\n' (flat (next :: rest)) = ' ' :: ['\\', '\n'] := by
        rw [Text.continueChar, if_pos rfl, if_neg (by simpa using some)]
        rfl
      rw [Mark.continued, joint]
      exact of_char (by decide) (by decide) _ _
  induction front with
  | nil => exact bare
  | cons mark rest ih =>
    have inner := ih fun mark member => proper mark (by simp [member])
    cases mark with
    | char c =>
      by_cases ending : c = '\n'
      · exact ending ▸ feed rest
      -- A carriage return goes with the line feed behind it.
      by_cases dropped : c = '\r' ∧ (flat rest).head? = some '\n'
      · obtain ⟨rfl, next⟩ := dropped
        obtain ⟨rest, rfl⟩ := char_of_head? next (by decide)
        have later := feed rest
        have same : Mark.continued (.char '\r' :: .char '\n' :: rest) =
            Mark.continued (.char '\n' :: rest) := by
          simp [Mark.continued, Text.continueChar]
        rw [same]
        refine ⟨fun closed => ?_, fun c trails shown => ?_⟩
        · simpa [Mark.closes] using later.closes closed
        · have opened := later.exposed c trails shown
          have closed : Mark.closes (.char '\n' :: (rest ++ .marker kind body :: before)) = true := by
            by_contra open_
            have stands : Mark.exposed (.char '\n' :: (rest ++ .marker kind body :: before)) =
                some '\n' := by
              simp only [Mark.closes] at open_
              simp [Mark.exposed, Bool.eq_false_iff.mpr (by simpa using open_)]
            exact trails.inner (.inl (Option.some.inj (opened.symm.trans stands)))
          simpa [Mark.exposed, closed] using opened
      · rw [Mark.continued, Text.continueChar, if_neg ending, if_neg dropped]
        exact inner.cons (.char c)
    | marker own inside =>
      have isKind := (proper (.marker own inside) (by simp)).1
      constructor
      · simp only [List.cons_append, Mark.continued, Mark.closes, decide_eq_true_eq]
        intro closed
        unfold Scan.directive at closed ⊢
        split at closed
        · simp at closed
        · rename_i other
          rw [if_neg other]
          exact Directive.functionEnd_of_continueBody isKind closed
      · simp only [List.cons_append, Mark.continued, Mark.exposed]
        split
        · rename_i vanishes
          rw [if_pos (vanishes_of_continueBody isKind vanishes)]
          exact inner.exposed
        · simp

private theorem define_of_native {directive : Directive} {line : Text} {c : Char} (leads : Leading c)
    (native : directive.native? = some line) (last : line.getLast? = some c) :
    ∃ name, directive = .define name ∧ name.getLast? = some c := by
  have other : c ≠ ')' ∧ c ≠ 'e' ∧ c ≠ 'f' ∧ c ≠ ' ' := by
    rcases leads with rfl | rfl | rfl <;> decide
  have closes (condition : Condition) : condition.native.getLast? = some ')' := by
    unfold Condition.native
    split <;> rw [List.getLast?_append] <;> rfl
  have behind {signs text : Text} {c : Char} (ends : text.getLast? = some c) :
      (signs ++ text).getLast? = some c := by
    rw [List.getLast?_append, ends]
    rfl
  unfold Directive.native? at native
  split at native
  case h_1 condition =>
    rw [← Option.some.inj native, behind (closes condition)] at last
    exact absurd (Option.some.inj last).symm other.1
  case h_2 condition =>
    rw [← Option.some.inj native, behind (closes condition)] at last
    exact absurd (Option.some.inj last).symm other.1
  case h_3 =>
    rw [← Option.some.inj native] at last
    exact absurd (Option.some.inj last).symm other.2.1
  case h_4 =>
    rw [← Option.some.inj native] at last
    exact absurd (Option.some.inj last).symm other.2.2.1
  case h_5 name =>
    refine ⟨name, rfl, ?_⟩
    rw [← Option.some.inj native, List.getLast?_append] at last
    cases ends : name.getLast? with
    | none =>
      rw [ends] at last
      exact absurd (Option.some.inj last).symm other.2.2.2
    | some own => simpa [ends] using last
  case h_6 => simp at native

theorem ending?_continueBody {kind c : Char} {body : Text} (isKind : kind = '@' ∨ kind = '!')
    (leads : Leading c)
    (last : ending? (.marker kind (Directive.continueBody kind body)) = some c) :
    ending? (.marker kind body) = some c := by
  obtain ⟨line, native, ends⟩ := Option.bind_eq_some_iff.mp last
  obtain ⟨name, define, ends⟩ := define_of_native leads native ends
  have same : Scan.directive kind body = .define name := by
    unfold Scan.directive at define ⊢
    split at define
    · simp at define
    · rename_i other
      rw [if_neg other]
      refine Directive.define_of_continueBody isKind (fun joint => ?_) define
      rw [joint] at ends
      obtain rfl : '\\' = c := Option.some.inj ends
      rcases leads with same | same | same <;> exact absurd same (by decide)
  have native : (Directive.define name).native? = some ("#define ".toList ++ name) := rfl
  change (Scan.directive kind body).native?.bind List.getLast? = some c
  rw [same, native, Option.bind_some, List.getLast?_append, ends]
  rfl

private theorem closes_chars {text : Text} (rest : List Mark)
    (solid : ∃ c, text.getLast? = some c ∧ c ≠ '\n' ∧ c ≠ '\r') :
    closes (text.map .char ++ rest) = false := by
  obtain ⟨c, last, inner⟩ := solid
  induction text with
  | nil => simp at last
  | cons first text ih =>
    cases text with
    | nil =>
      obtain rfl : first = c := by simpa using last
      simp [closes, inner]
    | cons next text =>
      have later := ih (by simpa [List.getLast?_cons_cons] using last)
      rw [List.map_cons, List.cons_append, closes, later, Bool.and_false]

theorem exposed_chars {text : Text} (rest : List Mark)
    (solid : ∃ c, text.getLast? = some c ∧ c ≠ '\n' ∧ c ≠ '\r') :
    exposed (text.map .char ++ rest) = text.head? := by
  obtain ⟨c, last, inner⟩ := solid
  cases text with
  | nil => simp at last
  | cons first text =>
    cases text with
    | nil =>
      obtain rfl : first = c := by simpa using last
      simp [exposed, inner]
    | cons next text =>
      have closed := closes_chars rest ⟨c, by simpa [List.getLast?_cons_cons] using last, inner⟩
      simp only [List.map_cons, List.cons_append] at closed ⊢
      rw [exposed, closed, Bool.and_false, if_neg (by simp)]
      rfl

namespace Apart

theorem of_append {front rest : List Mark} (apart : Apart (front ++ rest)) : Apart rest := by
  induction front with
  | nil => exact apart
  | cons mark front ih => exact ih apart.2

/-- A text without openers stands apart from what follows it. -/
theorem chars {text : Text} {rest : List Mark} (closed : leftover? text = none)
    (solid : ∃ c, text.getLast? = some c ∧ c ≠ '\n' ∧ c ≠ '\r' ∧ c ≠ '<') (apart : Apart rest) :
    Apart (text.map .char ++ rest) := by
  obtain ⟨c, last, feed, turn, other⟩ := solid
  induction text with
  | nil => simp at last
  | cons first text ih =>
    rw [leftover?_eq_none_iff, Text.meet_cons, Text.meet_cons] at closed
    have later : leftover? text = none := leftover?_eq_none_iff.mpr (by tauto)
    cases text with
    | nil =>
      obtain rfl : first = c := by simpa using last
      exact ⟨fun angle => absurd (Option.some.inj angle) other, apart⟩
    | cons next text =>
      have last : (next :: text).getLast? = some c := by
        simpa [List.getLast?_cons_cons] using last
      have shown := exposed_chars rest ⟨c, last, feed, turn⟩
      refine ⟨fun angle opening => ?_, ih later last⟩
      obtain rfl := Option.some.inj angle
      change Opening (exposed ((next :: text).map .char ++ rest)) at opening
      rw [shown] at opening
      rcases opening with same | same <;> obtain rfl := Option.some.inj same <;> simp at closed

/-- Continuing the lines of a block and taking out its end keeps marks apart. -/
theorem continued {front before after : List Mark} {kind : Char} {body : Text}
    (ends : Scan.directive kind body = .functionEnd) (proper : ∀ mark ∈ front, Proper mark)
    (covers : Covers before after) (apart : Apart (front ++ .marker kind body :: before))
    (rest : Apart after) : Apart (Mark.continued front ++ after) := by
  induction front with
  | nil => exact rest
  | cons mark front ih =>
    have others : ∀ mark ∈ front, Proper mark := fun mark member => proper mark (by simp [member])
    have later := ih others apart.2
    have exposes := (covers.continued ends others).opening
    cases mark with
    | char c =>
      rw [Mark.continued, List.append_assoc, Text.continueChar]
      split
      · split
        · exact later
        · have closed : leftover? [' ', '\\'] = none := by decide
          exact @chars _ (.char '\n' :: (Mark.continued front ++ after)) closed ⟨'\\', by decide⟩
            ⟨fun angle => absurd (Option.some.inj angle) (by decide), later⟩
      · split
        · exact later
        · exact ⟨fun last opening => apart.1 last (exposes opening), later⟩
    | marker own inside =>
      have isKind := (proper (.marker own inside) (by simp)).1
      refine ⟨fun last opening => ?_, later⟩
      exact apart.1 (ending?_continueBody isKind (.inl rfl) last) (exposes opening)

end Apart

end ShaderBuild.Mark
