import ShaderBuild.Text.Utf8
import Mathlib.Tactic.Common
/-!
Texts by their offsets in bytes. A text can be cut where a character begins and at its end, and nowhere
else: there is no slice between other offsets. From every offset a place to cut is found by going back
or on byte by byte, three bytes away at most.
-/
namespace ShaderBuild

section
variable {front rest : Text}

theorem eq_nil_of_byteLength {text : Text} (empty : Text.byteLength text = 0) : text = [] := by
  cases text with
  | nil => rfl
  | cons c rest =>
    have wide := c.utf8Size_pos
    rw [Text.byteLength] at empty
    omega

theorem append_of_byteLength_le {before tail : Text} (same : front ++ rest = before ++ tail)
    (past : Text.byteLength front ≤ Text.byteLength before) :
    ∃ between, before = front ++ between ∧ rest = between ++ tail := by
  rcases List.append_eq_append_iff.mp same with ⟨between, rfl, rfl⟩ | ⟨between, rfl, rfl⟩
  · exact ⟨between, rfl, rfl⟩
  · rw [Text.byteLength_append] at past
    obtain rfl : between = [] := eq_nil_of_byteLength (by omega)
    exact ⟨[], by simp, rfl⟩

end

namespace Text

/-- The text cut at an offset; inside a character and behind the end it cannot be cut. -/
def cut? : Text → Nat → Option (Text × Text)
  | text, 0 => some ([], text)
  | [], _ + 1 => none
  | c :: rest, offset + 1 =>
    if c.utf8Size ≤ offset + 1 then
      (cut? rest (offset + 1 - c.utf8Size)).map fun (before, after) => (c :: before, after)
    else none

/-- A character begins at the offset, or the text ends there. -/
def isBoundary (text : Text) (offset : Nat) : Bool :=
  (cut? text offset).isSome

/-- The part of the text between two offsets; both have to be boundaries, the first not behind the
second. -/
def slice? (text : Text) (start stop : Nat) : Option Text := do
  let (front, _) ← cut? text stop
  let (_, part) ← cut? front start
  pure part

/-- Going back from an offset, byte by byte, until the text can be cut. In front of the text there is
nothing to go back to. -/
inductive Retreats (text : Text) : Nat → Nat → Prop where
  | here (boundary : isBoundary text offset = true) : Retreats text offset offset
  | back (inside : isBoundary text (offset + 1) = false) (later : Retreats text offset found) :
      Retreats text (offset + 1) found

/-- Going on from an offset, byte by byte, until the text can be cut. -/
inductive Advances (text : Text) : Nat → Nat → Prop where
  | here (boundary : isBoundary text offset = true) : Advances text offset offset
  | on (inside : isBoundary text offset = false) (later : Advances text (offset + 1) found) :
      Advances text offset found

variable {text before after part : Text} {offset start stop found : Nat}

private theorem cut?_byteLength (before after : Text) :
    cut? (before ++ after) (byteLength before) = some (before, after) := by
  induction before with
  | nil => rw [byteLength, List.nil_append, cut?]
  | cons c before ih =>
    have wide := c.utf8Size_pos
    obtain ⟨size, same⟩ : ∃ size, byteLength (c :: before) = size + 1 :=
      Nat.exists_eq_succ_of_ne_zero (by rw [byteLength]; omega)
    have rest : size + 1 - c.utf8Size = byteLength before := by rw [← same, byteLength]; omega
    have fits : c.utf8Size ≤ size + 1 := by rw [← same, byteLength]; omega
    rw [same, List.cons_append, cut?, if_pos fits, rest, ih]
    rfl

theorem cut?_eq_some : cut? text offset = some (before, after) ↔
    text = before ++ after ∧ byteLength before = offset := by
  constructor
  · intro cut
    induction text generalizing offset before with
    | nil =>
      cases offset with
      | zero =>
        obtain ⟨rfl, rfl⟩ := Prod.mk.inj (Option.some.inj cut)
        exact ⟨rfl, rfl⟩
      | succ offset => cases cut
    | cons c rest ih =>
      cases offset with
      | zero =>
        obtain ⟨rfl, rfl⟩ := Prod.mk.inj (Option.some.inj cut)
        exact ⟨rfl, rfl⟩
      | succ offset =>
        rw [cut?] at cut
        split at cut
        · rename_i fits
          obtain ⟨⟨front, back⟩, later, same⟩ := Option.map_eq_some_iff.mp cut
          obtain ⟨rfl, rfl⟩ := Prod.mk.inj same
          obtain ⟨rfl, length⟩ := ih later
          refine ⟨rfl, ?_⟩
          rw [byteLength]
          omega
        · cases cut
  · rintro ⟨rfl, rfl⟩
    exact cut?_byteLength before after

theorem isBoundary_iff : isBoundary text offset = true ↔
    ∃ before after, text = before ++ after ∧ byteLength before = offset := by
  rw [isBoundary, Option.isSome_iff_exists]
  constructor
  · rintro ⟨⟨before, after⟩, cut⟩
    exact ⟨before, after, cut?_eq_some.mp cut⟩
  · rintro ⟨before, after, cut⟩
    exact ⟨(before, after), cut?_eq_some.mpr cut⟩

theorem slice?_eq_some : slice? text start stop = some part ↔
    ∃ before after, text = before ++ (part ++ after) ∧ byteLength before = start ∧
      start + byteLength part = stop := by
  unfold slice?
  constructor
  · intro sliced
    obtain ⟨⟨front, after⟩, first, sliced⟩ := Option.bind_eq_some_iff.mp sliced
    obtain ⟨⟨before, middle⟩, second, sliced⟩ := Option.bind_eq_some_iff.mp sliced
    obtain rfl := Option.some.inj sliced
    obtain ⟨rfl, ends⟩ := cut?_eq_some.mp first
    obtain ⟨rfl, starts⟩ := cut?_eq_some.mp second
    refine ⟨before, after, List.append_assoc _ _ _, starts, ?_⟩
    rw [← starts, ← byteLength_append, ends]
  · rintro ⟨before, after, rfl, rfl, rfl⟩
    rw [← List.append_assoc, ← byteLength_append, cut?_byteLength]
    change (cut? (before ++ part) (byteLength before) >>= _) = _
    rw [cut?_byteLength]
    rfl

theorem slice?_isSome_iff : (slice? text start stop).isSome = true ↔
    start ≤ stop ∧ isBoundary text start = true ∧ isBoundary text stop = true := by
  rw [Option.isSome_iff_exists, isBoundary_iff, isBoundary_iff]
  constructor
  · rintro ⟨part, sliced⟩
    obtain ⟨before, after, rfl, rfl, rfl⟩ := slice?_eq_some.mp sliced
    refine ⟨Nat.le_add_right _ _, ⟨before, part ++ after, rfl, rfl⟩, before ++ part, after, ?_, ?_⟩
    · rw [List.append_assoc]
    · rw [byteLength_append]
  · rintro ⟨ordered, ⟨before, rest, rfl, rfl⟩, front, after, same, rfl⟩
    obtain ⟨part, rfl, rfl⟩ := append_of_byteLength_le same ordered
    exact ⟨part, slice?_eq_some.mpr ⟨before, after, rfl, rfl, (byteLength_append _ _).symm⟩⟩

theorem isInfix_of_slice? {front shown rest : Text} (sliced : slice? text start stop = some part)
    (same : text = front ++ (shown ++ rest)) (begins : start ≤ byteLength front)
    (ends : byteLength front + byteLength shown ≤ stop) : shown <:+: part := by
  obtain ⟨before, after, rfl, rfl, rfl⟩ := slice?_eq_some.mp sliced
  obtain ⟨lead, rfl, whole⟩ := append_of_byteLength_le same begins
  rw [byteLength_append] at ends
  rw [← List.append_assoc] at whole
  obtain ⟨trail, rfl, -⟩ := append_of_byteLength_le whole.symm (by rw [byteLength_append]; omega)
  exact ⟨lead, trail, rfl⟩

/-! ### Bytes -/

theorem encode_append (first second : Text) :
    encode (first ++ second) = encode first ++ encode second :=
  List.flatMap_append

theorem length_encode (text : Text) : (encode text).length = byteLength text := by
  induction text with
  | nil => rfl
  | cons c rest ih =>
    rw [encode, List.flatMap_cons, List.length_append, String.length_utf8EncodeChar, byteLength]
    exact congrArg _ ih

/-! ### The nearest boundary -/

theorem isBoundary_zero (text : Text) : isBoundary text 0 = true :=
  isBoundary_iff.mpr ⟨[], text, rfl, rfl⟩

theorem isBoundary_byteLength (text : Text) : isBoundary text (byteLength text) = true :=
  isBoundary_iff.mpr ⟨text, [], (List.append_nil text).symm, rfl⟩

private theorem boundary_or_inside (within : offset ≤ byteLength text) :
    isBoundary text offset = true ∨ ∃ before c after, text = before ++ c :: after ∧
      byteLength before < offset ∧ offset < byteLength before + c.utf8Size := by
  induction text generalizing offset with
  | nil =>
    obtain rfl : offset = 0 := Nat.le_zero.mp within
    exact .inl (isBoundary_zero [])
  | cons c rest ih =>
    by_cases start : offset = 0
    · exact .inl (start ▸ isBoundary_zero (c :: rest))
    by_cases first : offset < c.utf8Size
    · exact .inr ⟨[], c, rest, rfl, Nat.pos_of_ne_zero start, by rw [byteLength]; omega⟩
    rw [byteLength] at within
    have later : offset - c.utf8Size ≤ byteLength rest := by omega
    rcases ih later with boundary | inside
    · obtain ⟨before, after, rfl, length⟩ := isBoundary_iff.mp boundary
      exact .inl (isBoundary_iff.mpr ⟨c :: before, after, rfl, by rw [byteLength]; omega⟩)
    · obtain ⟨before, d, after, rfl, below, above⟩ := inside
      refine .inr ⟨c :: before, d, after, rfl, ?_, ?_⟩ <;> rw [byteLength] <;> omega

/-- Going back comes to the last boundary that is not behind the offset. -/
theorem Retreats.last (retreats : Retreats text offset found) :
    isBoundary text found = true ∧ found ≤ offset ∧
      ∀ other, isBoundary text other = true → other ≤ offset → other ≤ found := by
  induction retreats with
  | here boundary => exact ⟨boundary, Nat.le_refl _, fun _ _ le => le⟩
  | @back offset found inside later ih =>
    obtain ⟨boundary, le, last⟩ := ih
    refine ⟨boundary, Nat.le_succ_of_le le, fun other own below => last other own ?_⟩
    apply Nat.le_of_lt_succ
    apply Nat.lt_of_le_of_ne below
    rintro rfl
    rw [inside] at own
    cases own

/-- Going on comes to the first boundary that is not in front of the offset. -/
theorem Advances.first (advances : Advances text offset found) :
    isBoundary text found = true ∧ offset ≤ found ∧
      ∀ other, isBoundary text other = true → offset ≤ other → found ≤ other := by
  induction advances with
  | here boundary => exact ⟨boundary, Nat.le_refl _, fun _ _ le => le⟩
  | @on offset found inside later ih =>
    obtain ⟨boundary, le, first⟩ := ih
    refine ⟨boundary, Nat.le_of_succ_le le, fun other own above => first other own ?_⟩
    apply Nat.lt_of_le_of_ne above
    rintro rfl
    rw [inside] at own
    cases own

theorem exists_retreats (text : Text) (offset : Nat) : ∃ found, Retreats text offset found := by
  induction offset with
  | zero => exact ⟨0, .here (isBoundary_zero text)⟩
  | succ offset ih =>
    cases own : isBoundary text (offset + 1) with
    | true => exact ⟨offset + 1, .here own⟩
    | false =>
      obtain ⟨found, later⟩ := ih
      exact ⟨found, .back own later⟩

theorem exists_advances (within : offset ≤ byteLength text) : ∃ found, Advances text offset found := by
  obtain ⟨left, whole⟩ := Nat.exists_eq_add_of_le within
  induction left generalizing offset with
  | zero => exact ⟨offset, .here (by simpa [whole] using isBoundary_byteLength text)⟩
  | succ left ih =>
    cases own : isBoundary text offset with
    | true => exact ⟨offset, .here own⟩
    | false =>
      have next : offset + 1 ≤ byteLength text := by omega
      obtain ⟨found, later⟩ := ih next (by omega)
      exact ⟨found, .on own later⟩

theorem Retreats.near (retreats : Retreats text offset found) (within : offset ≤ byteLength text) :
    offset ≤ found + 3 := by
  obtain ⟨-, -, last⟩ := retreats.last
  rcases boundary_or_inside within with boundary | ⟨before, c, after, rfl, below, above⟩
  · exact Nat.le_add_right_of_le (last offset boundary (Nat.le_refl _))
  · have narrow := c.utf8Size_le_four
    have front := last (byteLength before) (isBoundary_iff.mpr ⟨_, _, rfl, rfl⟩) (Nat.le_of_lt below)
    omega

/-- Going on is three steps at most. -/
theorem Advances.near (advances : Advances text offset found) (within : offset ≤ byteLength text) :
    found ≤ offset + 3 := by
  obtain ⟨-, -, first⟩ := advances.first
  rcases boundary_or_inside within with boundary | ⟨before, c, after, rfl, below, above⟩
  · exact Nat.le_add_right_of_le (first offset boundary (Nat.le_refl _))
  · have narrow := c.utf8Size_le_four
    have ends : byteLength (before ++ [c]) = byteLength before + c.utf8Size := byteLength_append _ _
    have behind := first (byteLength before + c.utf8Size)
      (isBoundary_iff.mpr ⟨before ++ [c], after, by simp, ends⟩) (Nat.le_of_lt above)
    omega

end Text

end ShaderBuild
