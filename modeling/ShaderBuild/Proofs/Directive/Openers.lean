import ShaderBuild.Proofs.Directive.Marks
import ShaderBuild.Proofs.Text.Words
import Mathlib.Tactic.Common
/-!
Where an opener or a closer can come from: two characters side by side. What is read of a body is a
part of it, so a native line holds no opener that the body does not hold.
-/
namespace ShaderBuild

namespace Text

/-- The two characters stand side by side somewhere in the text. -/
def Meet (left right : Char) (text : Text) : Prop :=
  [left, right] <:+: text

variable {left right : Char}

@[simp] theorem not_meet_nil : ¬Meet left right [] := by
  simp [Meet]

theorem meet_cons {c : Char} {rest : Text} :
    Meet left right (c :: rest) ↔ (c = left ∧ rest.head? = some right) ∨ Meet left right rest := by
  rw [Meet, List.infix_cons_iff, List.cons_prefix_cons, Meet]
  cases rest with
  | nil => simp
  | cons next rest => simp [eq_comm]

theorem meet_append {first second : Text} :
    Meet left right (first ++ second) ↔ Meet left right first ∨ Meet left right second ∨
      (first.getLast? = some left ∧ second.head? = some right) := by
  induction first with
  | nil => simp
  | cons c first ih =>
    rw [List.cons_append, meet_cons, ih, meet_cons]
    cases first with
    | nil => simp; tauto
    | cons next first => simp; tauto

theorem Meet.of_isInfix {part whole : Text} (within : part <:+: whole) (met : Meet left right part) :
    Meet left right whole :=
  List.IsInfix.trans met within

theorem meet_between {before part after : Text}
    (front : ¬Meet left right before ∧ before.getLast? ≠ some left)
    (back : ¬Meet left right after ∧ after.head? ≠ some right)
    (met : Meet left right (before ++ part ++ after)) : Meet left right part := by
  rw [meet_append, meet_append] at met
  rcases met with (early | inside | ⟨last, _⟩) | late | ⟨_, first⟩
  · exact absurd early front.1
  · exact inside
  · exact absurd last front.2
  · exact absurd late back.1
  · exact absurd first back.2

instance decidableMeet (left right : Char) : (text : Text) → Decidable (Meet left right text)
  | [] => .isFalse not_meet_nil
  | _ :: rest =>
    have := decidableMeet left right rest
    decidable_of_iff _ meet_cons.symm

/-- The two characters open or close a marker. -/
def Delimits (left right : Char) : Prop :=
  (left = '<' ∧ (right = '@' ∨ right = '!')) ∨ ((left = '@' ∨ left = '!') ∧ right = '>')

end Text

namespace Scan

theorem closing?_eq_none_iff {kind : Char} {text : Text} :
    closing? kind text = none ↔ ¬Text.Meet kind '>' text := by
  induction text with
  | nil => simp [closing?]
  | cons c rest ih =>
    cases rest with
    | nil => simp [closing?, Text.meet_cons]
    | cons next rest =>
      rw [Text.meet_cons, closing?]
      split
      · simp_all
      · simp_all

end Scan

theorem firstOpener?_eq_none_iff {offset : Nat} {text : Text} :
    firstOpener? offset text = none ↔ ¬Text.Meet '<' '@' text ∧ ¬Text.Meet '<' '!' text := by
  induction text generalizing offset with
  | nil => simp [firstOpener?]
  | cons c rest ih =>
    rw [firstOpener?, Text.meet_cons, Text.meet_cons]
    have opens : (Scan.opener? (c :: rest)).isSome = true ↔
        c = '<' ∧ (rest.head? = some '@' ∨ rest.head? = some '!') := by
      rw [← not_iff_not, ← Scan.opener?_cons_eq_none_iff]
      simp
    by_cases opened : (Scan.opener? (c :: rest)).isSome = true
    · have first := opens.mp opened
      rw [if_pos opened]
      simp only [reduceCtorEq, false_iff, first.1]
      tauto
    · have first := mt opens.mpr opened
      rw [if_neg opened, ih]
      tauto

theorem exists_of_firstOpener? {offset : Nat} {text : Text} {found : Nat × Text}
    (first : firstOpener? offset text = some found) :
    ∃ before kind after, text = before ++ found.2 ∧ found.2 = '<' :: kind :: after ∧
      (kind = '@' ∨ kind = '!') ∧ found.1 = offset + Text.byteLength before := by
  induction text generalizing offset with
  | nil => cases first
  | cons c rest ih =>
    rw [firstOpener?] at first
    split at first
    · rename_i opened
      obtain ⟨⟨kind, after⟩, opener⟩ := Option.isSome_iff_exists.mp opened
      obtain ⟨same, isKind⟩ := Scan.opener?_eq_some_iff.mp opener
      obtain rfl := Option.some.inj first
      exact ⟨[], kind, after, rfl, same, isKind, rfl⟩
    · obtain ⟨before, kind, after, rfl, same, isKind, starts⟩ := ih first
      refine ⟨c :: before, kind, after, rfl, same, isKind, ?_⟩
      rw [starts, Text.byteLength, Nat.add_assoc]

/-- No marker begins in the text. -/
theorem leftover?_eq_none_iff {text : Text} :
    leftover? text = none ↔ ¬Text.Meet '<' '@' text ∧ ¬Text.Meet '<' '!' text := by
  rw [leftover?, Option.map_eq_none_iff, firstOpener?_eq_none_iff]

namespace Text

theorem trim_isInfix (text : Text) : trim text <:+: text := by
  unfold trim trimEnd trimStart
  have front : ((text.dropWhile isBlank).reverse.dropWhile isBlank).reverse <:+:
      (text.dropWhile isBlank).reverse.reverse :=
    List.IsInfix.reverse (List.dropWhile_suffix _).isInfix
  rw [List.reverse_reverse] at front
  exact front.trans (List.dropWhile_suffix _).isInfix

theorem firstWord_isInfix (text : Text) : (firstWord text).2 <:+: text :=
  (List.drop_suffix _ _).isInfix.trans (List.dropWhile_suffix _).isInfix

end Text

namespace Condition

theorem rightSide?_isInfix {rest right : Text} (read : rightSide? rest = some right) :
    right <:+: rest := by
  unfold rightSide? at read
  split at read
  · rename_i after same
    dsimp only at read
    split at read
    · obtain rfl := Option.some.inj read
      have whole : after <:+: rest := by
        have behind := List.dropWhile_suffix (l := rest) Text.isBlank
        rw [same] at behind
        exact ((List.suffix_cons _ _).trans ((List.suffix_cons _ _).trans behind)).isInfix
      exact (List.dropWhile_suffix _).isInfix.trans whole
    · simp at read
  · simp at read

theorem sides?_isInfix {expression left right : Text} (read : sides? expression = some (left, right)) :
    left <+: expression ∧ right <:+: expression := by
  induction expression generalizing left with
  | nil => simp [sides?] at read
  | cons c rest ih =>
    simp only [sides?] at read
    split at read
    · simp at read
    · split at read
      · rename_i inner other same
        obtain ⟨rfl, rfl⟩ := Prod.mk.inj (Option.some.inj read)
        obtain ⟨front, back⟩ := ih same
        exact ⟨List.cons_prefix_cons.mpr ⟨rfl, front⟩, List.infix_cons back⟩
      · obtain ⟨found, same, pair⟩ := Option.map_eq_some_iff.mp read
        obtain ⟨rfl, rfl⟩ := Prod.mk.inj pair
        exact ⟨by simp, List.infix_cons (rightSide?_isInfix same)⟩

theorem negated?_isInfix {expression name : Text} (read : negated? expression = some name) :
    name <:+: expression := by
  unfold negated? at read
  split at read
  · rename_i c rest
    dsimp only at read
    split at read
    · obtain rfl := Option.some.inj read
      refine (List.dropWhile_suffix _).isInfix.trans ?_
      exact (List.suffix_append ['n', 'o', 't', c] _).isInfix
    · simp at read
  · simp at read

/-- What a condition is made of stands in its expression, and the signs around it make no
delimiter. -/
theorem meet_native {expression : Text} {condition : Condition} {left right : Char}
    (delimits : Text.Delimits left right) (read : parse? expression = some condition)
    (met : Text.Meet left right condition.native) : Text.Meet left right expression := by
  have front : ∀ signs ∈ ["(".toList, " == ".toList, "!defined(".toList, "defined(".toList],
      ¬Text.Meet left right signs ∧ signs.getLast? ≠ some left := by
    rcases delimits with ⟨rfl, rfl | rfl⟩ | ⟨rfl | rfl, rfl⟩ <;> decide
  have back : ∀ signs ∈ [" == ".toList, ")".toList],
      ¬Text.Meet left right signs ∧ signs.head? ≠ some right := by
    rcases delimits with ⟨rfl, rfl | rfl⟩ | ⟨rfl | rfl, rfl⟩ <;> decide
  rw [parse?] at read
  cases both : sides? expression with
  | some sides =>
    obtain ⟨first, second⟩ := sides
    simp only [both, Option.some.injEq] at read
    subst read
    obtain ⟨begins, within⟩ := sides?_isInfix both
    change Text.Meet left right (("(".toList ++ first ++ " == ".toList) ++ second ++ ")".toList) at met
    rw [List.append_assoc _ second, Text.meet_append] at met
    rcases met with met | met | ⟨last, _⟩
    · exact (Text.meet_between (front _ (by simp)) (back _ (by simp)) met).of_isInfix begins.isInfix
    · have whole : Text.Meet left right ([] ++ second ++ ")".toList) := met
      exact (Text.meet_between (by simp) (back _ (by simp)) whole).of_isInfix within
    · rw [List.getLast?_append] at last
      exact absurd last (front " == ".toList (by simp)).2
  | none =>
    simp only [both] at read
    cases not : negated? expression with
    | some name =>
      simp only [not, Option.some.injEq] at read
      subst read
      unfold native at met
      exact (Text.meet_between (front _ (by simp)) (back _ (by simp)) met).of_isInfix
        (negated?_isInfix not)
    | none =>
      simp only [not, Option.ite_none_right_eq_some, Option.some.injEq] at read
      obtain ⟨_, rfl⟩ := read
      unfold native at met
      exact Text.meet_between (front _ (by simp)) (back _ (by simp)) met

end Condition

namespace Directive

open Text

theorem operand_isInfix (body : Text) : trim (firstWord (trim body)).2 <:+: body :=
  (trim_isInfix _).trans ((firstWord_isInfix _).trans (trim_isInfix body))

theorem functionBegin_isInfix {body : Text} {header : FunctionHeader}
    (read : parse body = .functionBegin header) : header.text <:+: body := by
  have within := operand_isInfix body
  have makes := makes_of_parse read (by simp)
  generalize (firstWord (trim body)).1 = keyword at makes
  generalize trim (firstWord (trim body)).2 = operand at within makes
  cases makes
  exact within

theorem include_isInfix {body name : Text} (read : parse body = .include name) :
    name <:+: body := by
  have within := operand_isInfix body
  have makes := makes_of_parse read (by simp)
  generalize (firstWord (trim body)).1 = keyword at makes
  generalize trim (firstWord (trim body)).2 = operand at within makes
  cases makes
  exact within

/-- A native line holds no delimiter that the body of its directive does not. -/
theorem meet_native {body line : Text} {left right : Char} (delimits : Delimits left right)
    (native : (parse body).native? = some line) (met : Meet left right line) :
    Meet left right body := by
  refine Meet.of_isInfix (operand_isInfix body) ?_
  have inert : ∀ signs ∈ ["#if ".toList, "#elif ".toList, "#else".toList, "#endif".toList,
      "#define ".toList], ¬Meet left right signs ∧ signs.getLast? ≠ some left := by
    rcases delimits with ⟨rfl, rfl | rfl⟩ | ⟨rfl | rfl, rfl⟩ <;> decide
  -- Only the operand of the directive can hold a delimiter: its sign cannot.
  have behind {signs operand : Text} (plain : ¬Meet left right signs ∧ signs.getLast? ≠ some left)
      (within : Meet left right (signs ++ operand)) : Meet left right operand := by
    rcases meet_append.mp within with front | back | ⟨last, _⟩
    · exact absurd front plain.1
    · exact back
    · exact absurd last plain.2
  have makes := @makes_parse body fun raw same => by
    rw [same] at native
    cases native
  generalize (firstWord (trim body)).1 = keyword at makes
  generalize trim (firstWord (trim body)).2 = operand at makes ⊢
  generalize parse body = directive at native makes
  cases makes with
  | whenever read =>
    obtain rfl := Option.some.inj native
    exact Condition.meet_native delimits read (behind (inert _ (by simp)) met)
  | otherwiseWhen read =>
    obtain rfl := Option.some.inj native
    exact Condition.meet_native delimits read (behind (inert _ (by simp)) met)
  | otherwise =>
    obtain rfl := Option.some.inj native
    exact absurd met (inert _ (by simp)).1
  | endWhen =>
    obtain rfl := Option.some.inj native
    exact absurd met (inert _ (by simp)).1
  | define =>
    obtain rfl := Option.some.inj native
    exact behind (inert _ (by simp)) met
  | functionBegin | functionEnd | «include» => cases native

end Directive

end ShaderBuild
