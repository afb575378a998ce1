import ShaderBuild.Text.Lines
/-!
Cutting a text at a separator is the cutting of lists.
-/
namespace ShaderBuild.Text

theorem exists_last {c : Char} {text : Text} (inside : c ∈ text) :
    ∃ before after : Text, text = before ++ c :: after ∧ c ∉ after := by
  obtain ⟨late, early, whole, apart⟩ := List.eq_append_cons_of_mem (List.mem_reverse.mpr inside)
  refine ⟨early.reverse, late.reverse, ?_, by simpa using apart⟩
  rw [← List.reverse_reverse text, whole]
  simp

theorem splitOn_eq (separator : Char) (text : Text) :
    splitOn separator text = List.splitOn separator text := by
  induction text with
  | nil => rfl
  | cons c rest ih =>
    rw [splitOn, List.splitOn_cons_eq_if_modifyHead, ih]
    by_cases same : c = separator
    · simp [same]
    · rw [if_neg same, if_neg (by simpa using same)]
      cases pieces : rest.splitOn separator with
      | nil => exact absurd pieces (List.splitOn_ne_nil _ _)
      | cons piece pieces => rfl

theorem splitOn_append (separator : Char) (first second : Text) :
    splitOn separator (first ++ separator :: second) =
      splitOn separator first ++ splitOn separator second := by
  simp only [splitOn_eq, List.splitOn_append_cons_self]

theorem splitOn_piece {separator : Char} {piece : Text} (whole : separator ∉ piece) :
    splitOn separator piece = [piece] := by
  rw [splitOn_eq, List.splitOn_eq_singleton whole]

theorem joinWith_splitOn (separator : Char) (text : Text) :
    joinWith [separator] (splitOn separator text) = text := by
  rw [splitOn_eq]
  exact List.intercalate_splitOn separator

theorem splitOn_joinWith {separator : Char} {pieces : List Text} (some : pieces ≠ [])
    (whole : ∀ piece ∈ pieces, separator ∉ piece) :
    splitOn separator (joinWith [separator] pieces) = pieces := by
  rw [splitOn_eq]
  exact List.splitOn_intercalate separator whole some

theorem not_mem_of_mem_splitOn {separator : Char} {text piece : Text}
    (member : piece ∈ splitOn separator text) : separator ∉ piece := by
  induction text generalizing piece with
  | nil =>
    obtain rfl := List.mem_singleton.mp member
    simp
  | cons c rest ih =>
    rw [splitOn] at member
    split at member
    · rcases List.mem_cons.mp member with rfl | later
      · simp
      · exact ih later
    · rename_i other
      split at member
      · obtain rfl := List.mem_singleton.mp member
        simpa using fun same => other same.symm
      · rename_i first pieces split
        rcases List.mem_cons.mp member with rfl | later
        · have inner : separator ∉ first := ih (by simp [split])
          simpa [inner] using fun same => other same.symm
        · exact ih (by simp [split, later])

private theorem joinWith_cons_cons (separator piece next : Text) (pieces : List Text) :
    joinWith separator (piece :: next :: pieces) =
      piece ++ separator ++ joinWith separator (next :: pieces) := by
  simp [joinWith, List.intercalate]

theorem mem_joinWith {c : Char} {separator piece : Text} {pieces : List Text}
    (member : piece ∈ pieces) (inside : c ∈ piece) : c ∈ joinWith separator pieces := by
  induction pieces with
  | nil => simp at member
  | cons first pieces ih =>
    cases pieces with
    | nil =>
      obtain rfl := List.mem_singleton.mp member
      simpa [joinWith] using inside
    | cons next pieces =>
      rw [joinWith_cons_cons]
      rcases List.mem_cons.mp member with rfl | later
      · exact List.mem_append_left _ (List.mem_append_left _ inside)
      · exact List.mem_append_right _ (ih later)

theorem not_mem_joinWith {c : Char} {separator : Text} {pieces : List Text}
    (apart : c ∉ separator) (each : ∀ piece ∈ pieces, c ∉ piece) :
    c ∉ joinWith separator pieces := by
  induction pieces with
  | nil => simp [joinWith]
  | cons piece pieces ih =>
    have first := each piece List.mem_cons_self
    cases pieces with
    | nil => simpa [joinWith] using first
    | cons next pieces =>
      have rest := ih fun own member => each own (List.mem_cons_of_mem _ member)
      simp [joinWith_cons_cons, first, apart, rest]

theorem mem_of_mem_splitOn {c separator : Char} {text piece : Text}
    (member : piece ∈ splitOn separator text) (inside : c ∈ piece) : c ∈ text := by
  have joined : c ∈ joinWith [separator] (splitOn separator text) := mem_joinWith member inside
  rwa [joinWith_splitOn] at joined

end ShaderBuild.Text
