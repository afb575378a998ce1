import ShaderBuild.Directive.Grammar
import ShaderBuild.Proofs.Text.Spacing
/-!
How a condition is read. Of all ways to take an expression for an equality the one with the longest left
side counts; what is no equality may be a negation, and what is neither may be a single name.
-/
namespace ShaderBuild.Condition

open Text (Blank isToken isBlank)

/-- The expression is a token, `==` and another token, with white space around the sign or without. -/
def Equates (expression left right : Text) : Prop :=
  ∃ before behind, expression = left ++ (before ++ ("==".toList ++ (behind ++ right))) ∧
    Blank before ∧ Blank behind ∧ isToken left = true ∧ isToken right = true

/-- The expression equates the two sides, and no equality in it has a longer left side. -/
def EquatesFirst (expression left right : Text) : Prop :=
  Equates expression left right ∧
    ∀ other rest, Equates expression other rest → other.length ≤ left.length

/-- The expression is the word `not`, white space, and a token. -/
def Negates (expression name : Text) : Prop :=
  ∃ gap, expression = "not".toList ++ (gap ++ name) ∧ Blank gap ∧ gap ≠ [] ∧ isToken name = true

variable {expression left right other rest name tail : Text} {c : Char}

/-! ### Equalities -/

/-- What follows the left side: the sign, and the right side behind it. -/
theorem rightSide?_eq_some : rightSide? tail = some right ↔
    ∃ before behind, tail = before ++ ("==".toList ++ (behind ++ right)) ∧
      Blank before ∧ Blank behind ∧ isToken right = true := by
  constructor
  · intro read
    unfold rightSide? at read
    split at read
    · rename_i after signed
      dsimp only at read
      split at read
      · rename_i token
        obtain rfl := Option.some.inj read
        refine ⟨tail.takeWhile isBlank, after.takeWhile isBlank, ?_,
          fun d member => List.mem_takeWhile_imp member,
          fun d member => List.mem_takeWhile_imp member, token⟩
        have cut := tail.takeWhile_append_dropWhile (p := isBlank)
        rw [signed] at cut
        rw [List.takeWhile_append_dropWhile]
        exact cut.symm
      · cases read
    · cases read
  · rintro ⟨before, behind, rfl, blank, blankToo, token⟩
    have sign : ("==".toList ++ (behind ++ right)).dropWhile isBlank =
        '=' :: '=' :: (behind ++ right) := Text.dropWhile_word (by decide) _
    have solid : right.dropWhile isBlank = right := by
      simpa using Text.dropWhile_word token []
    rw [rightSide?, Text.dropWhile_blank blank, sign]
    simp only [Text.dropWhile_blank blankToo, solid, token, if_true]

private theorem equates_iff : Equates expression left right ↔
    ∃ tail, expression = left ++ tail ∧ isToken left = true ∧ rightSide? tail = some right := by
  constructor
  · rintro ⟨before, behind, rfl, blank, blankToo, token, tokenToo⟩
    exact ⟨_, rfl, token, rightSide?_eq_some.mpr ⟨before, behind, rfl, blank, blankToo, tokenToo⟩⟩
  · rintro ⟨tail, rfl, token, read⟩
    obtain ⟨before, behind, rfl, blank, blankToo, tokenToo⟩ := rightSide?_eq_some.mp read
    exact ⟨before, behind, rfl, blank, blankToo, token, tokenToo⟩

/-- An equality has one right side for each left side. -/
theorem Equates.unique (equates : Equates expression left right)
    (again : Equates expression other rest) (same : other.length = left.length) :
    other = left ∧ rest = right := by
  obtain ⟨tail, whole, -, read⟩ := equates_iff.mp equates
  obtain ⟨tailToo, wholeToo, -, readToo⟩ := equates_iff.mp again
  obtain ⟨rfl, rfl⟩ := List.append_inj (wholeToo.symm.trans whole) same
  exact ⟨rfl, Option.some.inj (readToo.symm.trans read)⟩

private theorem equates_cons : Equates (c :: tail) left right ↔ isBlank c = false ∧
    (left = [c] ∧ rightSide? tail = some right ∨
      ∃ longer, left = c :: longer ∧ Equates tail longer right) := by
  simp only [equates_iff, Text.isToken_iff]
  constructor
  · rintro ⟨after, whole, ⟨some, solid⟩, read⟩
    obtain ⟨d, longer, rfl⟩ := List.exists_cons_of_ne_nil some
    obtain ⟨rfl, rfl⟩ := List.cons.inj whole
    refine ⟨solid c List.mem_cons_self, ?_⟩
    cases longer with
    | nil => exact .inl ⟨rfl, read⟩
    | cons d longer =>
      exact .inr ⟨d :: longer, rfl, after, rfl, ⟨List.cons_ne_nil _ _,
        fun e member => solid e (List.mem_cons_of_mem _ member)⟩, read⟩
  · rintro ⟨solid, ⟨rfl, read⟩ | ⟨longer, rfl, after, rfl, ⟨_, solidToo⟩, read⟩⟩
    · exact ⟨tail, rfl, ⟨List.cons_ne_nil _ _, by simpa using solid⟩, read⟩
    · exact ⟨after, rfl, ⟨List.cons_ne_nil _ _, List.forall_mem_cons.mpr ⟨solid, solidToo⟩⟩, read⟩

theorem not_equates_nil : ¬ Equates [] left right := by
  rintro ⟨before, behind, whole, -⟩
  simp at whole

private theorem sides?_spec (expression : Text) :
    (∀ left right, sides? expression = some (left, right) → EquatesFirst expression left right) ∧
      (sides? expression = none → ∀ left right, ¬ Equates expression left right) := by
  induction expression with
  | nil => exact ⟨nofun, fun _ _ _ => not_equates_nil⟩
  | cons c tail ih =>
    rw [sides?]
    cases blank : isBlank c with
    | true =>
      refine ⟨nofun, fun _ left right equates => ?_⟩
      simp [equates_cons, blank] at equates
    | false =>
      simp only [Bool.false_eq_true, if_false]
      cases longer : sides? tail with
      | some sides =>
        obtain ⟨equates, first⟩ := ih.1 sides.1 sides.2 longer
        refine ⟨fun left right read => ?_, nofun⟩
        obtain ⟨rfl, rfl⟩ := Prod.mk.inj (Option.some.inj read)
        refine ⟨equates_cons.mpr ⟨blank, .inr ⟨_, rfl, equates⟩⟩, fun other rest again => ?_⟩
        obtain ⟨-, ⟨rfl, -⟩ | ⟨shorter, rfl, inner⟩⟩ := equates_cons.mp again
        · simp
        · simpa using first shorter rest inner
      | none =>
        have none := ih.2 longer
        refine ⟨fun left right read => ?_, fun unread left right equates => ?_⟩
        · obtain ⟨_, signed, same⟩ := Option.map_eq_some_iff.mp read
          obtain ⟨rfl, rfl⟩ := Prod.mk.inj same
          refine ⟨equates_cons.mpr ⟨blank, .inl ⟨rfl, signed⟩⟩, fun other rest again => ?_⟩
          obtain ⟨-, ⟨rfl, -⟩ | ⟨shorter, -, inner⟩⟩ := equates_cons.mp again
          · exact Nat.le_refl _
          · exact absurd inner (none shorter rest)
        · obtain ⟨-, ⟨-, signed⟩ | ⟨shorter, -, inner⟩⟩ := equates_cons.mp equates
          · simp [signed] at unread
          · exact none shorter right inner

theorem sides?_eq_none : sides? expression = none ↔
    ∀ left right, ¬ Equates expression left right := by
  refine ⟨(sides?_spec expression).2, fun none => ?_⟩
  cases read : sides? expression with
  | none => rfl
  | some sides => exact absurd ((sides?_spec expression).1 sides.1 sides.2 read).1 (none _ _)

theorem sides?_eq_some : sides? expression = some (left, right) ↔
    EquatesFirst expression left right := by
  refine ⟨(sides?_spec expression).1 left right, fun ⟨equates, first⟩ => ?_⟩
  cases read : sides? expression with
  | none => exact absurd equates (sides?_eq_none.mp read left right)
  | some sides =>
    obtain ⟨equatesToo, firstToo⟩ := (sides?_spec expression).1 sides.1 sides.2 read
    obtain ⟨same, sameToo⟩ := equates.unique equatesToo
      (Nat.le_antisymm (first _ _ equatesToo) (firstToo _ _ equates))
    rw [← same, ← sameToo]

/-! ### Negations -/

theorem negated?_eq_some : negated? expression = some name ↔ Negates expression name := by
  constructor
  · intro read
    unfold negated? at read
    split at read
    · rename_i c rest
      dsimp only at read
      split at read
      · rename_i both
        obtain rfl := Option.some.inj read
        obtain ⟨blank, token⟩ := Bool.and_eq_true_iff.mp both
        refine ⟨c :: rest.takeWhile isBlank, by simp, ?_, by simp, token⟩
        exact List.forall_mem_cons.mpr ⟨blank, fun d member => List.mem_takeWhile_imp member⟩
      · cases read
    · cases read
  · rintro ⟨gap, rfl, blank, apart, token⟩
    obtain ⟨c, rest, rfl⟩ := List.exists_cons_of_ne_nil apart
    obtain ⟨first, later⟩ := List.forall_mem_cons.mp blank
    have solid : name.dropWhile isBlank = name := by
      simpa using Text.dropWhile_word token []
    have trimmed : (rest ++ name).dropWhile isBlank = name := by
      rw [Text.dropWhile_blank later, solid]
    simp [negated?, trimmed, token, first]

theorem negated?_eq_none : negated? expression = none ↔ ∀ name, ¬ Negates expression name := by
  simp only [Option.eq_none_iff_forall_ne_some, ne_eq, negated?_eq_some]

/-! ### Conditions -/

theorem exists_equatesFirst (equates : Equates expression left right) :
    ∃ first second, EquatesFirst expression first second := by
  cases read : sides? expression with
  | none => exact absurd equates (sides?_eq_none.mp read left right)
  | some sides => exact ⟨sides.1, sides.2, sides?_eq_some.mp read⟩

private theorem parse?_eq_or (expression : Text) : parse? expression =
    ((sides? expression).map fun sides => .equals sides.1 sides.2).or
      (((negated? expression).map .undefined).or
        (if isToken expression then some (.defined expression) else none)) := by
  rw [parse?]
  cases sides? expression <;> cases negated? expression <;> rfl

theorem parse?_eq_equals : parse? expression = some (.equals left right) ↔
    EquatesFirst expression left right := by
  rw [← sides?_eq_some, parse?_eq_or]
  simp [Option.or_eq_some_iff]

theorem parse?_eq_undefined : parse? expression = some (.undefined name) ↔
    (∀ left right, ¬ Equates expression left right) ∧ Negates expression name := by
  rw [← sides?_eq_none, ← negated?_eq_some, parse?_eq_or]
  simp [Option.or_eq_some_iff]

theorem parse?_eq_defined : parse? expression = some (.defined name) ↔
    (∀ left right, ¬ Equates expression left right) ∧ (∀ name, ¬ Negates expression name) ∧
      isToken expression = true ∧ expression = name := by
  rw [← sides?_eq_none, ← negated?_eq_none, parse?_eq_or]
  simp [Option.or_eq_some_iff]

theorem parse?_eq_none : parse? expression = none ↔
    (∀ left right, ¬ Equates expression left right) ∧ (∀ name, ¬ Negates expression name) ∧
      isToken expression = false := by
  rw [← sides?_eq_none, ← negated?_eq_none, parse?_eq_or]
  simp

/-- Every expression is read as an equality if it is one, and then as that with the longest left side,
of which there is one only; else as a negation if it is one; else as a name if it is one; and else not
at all. -/
theorem parse?_prefers (expression : Text) :
    ((∃ left right, parse? expression = some (.equals left right)) ↔
      ∃ left right, Equates expression left right) ∧
    (∀ left right, parse? expression = some (.equals left right) ↔
      EquatesFirst expression left right) ∧
    (∀ left right other rest, EquatesFirst expression left right →
      EquatesFirst expression other rest → other = left ∧ rest = right) ∧
    (∀ name, parse? expression = some (.undefined name) ↔
      (∀ left right, ¬ Equates expression left right) ∧ Negates expression name) ∧
    (∀ name, parse? expression = some (.defined name) ↔
      (∀ left right, ¬ Equates expression left right) ∧ (∀ name, ¬ Negates expression name) ∧
        isToken expression = true ∧ expression = name) ∧
    (parse? expression = none ↔
      (∀ left right, ¬ Equates expression left right) ∧ (∀ name, ¬ Negates expression name) ∧
        isToken expression = false) := by
  refine ⟨⟨?_, ?_⟩, fun _ _ => parse?_eq_equals, ?_, fun _ => parse?_eq_undefined,
    fun _ => parse?_eq_defined, parse?_eq_none⟩
  · rintro ⟨left, right, read⟩
    exact ⟨left, right, (parse?_eq_equals.mp read).1⟩
  · rintro ⟨left, right, equates⟩
    obtain ⟨first, second, longest⟩ := exists_equatesFirst equates
    exact ⟨first, second, parse?_eq_equals.mpr longest⟩
  · rintro left right other rest ⟨equates, longest⟩ ⟨again, longestToo⟩
    exact equates.unique again
      (Nat.le_antisymm (longest other rest again) (longestToo left right equates))

/-- Of a run of equals signs the last two are the sign; a negation may be an equality. -/
example : parse? "A===B".toList = some (.equals "A=".toList "B".toList) ∧
    parse? "not ==X".toList = some (.equals "not".toList "X".toList) := by decide +kernel

end ShaderBuild.Condition
