import ShaderBuild.Dependency.Key
import ShaderBuild.Proofs.Command.Line
import ShaderBuild.Proofs.Text.Split
/-!
Keys and their texts: which keys are read back, and when two keys have one text.
-/
namespace ShaderBuild

theorem Path.same_iff {left right : Path} :
    left.same right = true ↔ left.components = right.components :=
  beq_iff_eq

private theorem Variant.not_mem_name (variant : Variant) : ':' ∉ variant.name.toList := by
  cases variant <;> decide

namespace DependencyKey

variable {key left right : DependencyKey} {text : Text}

/-- A key that a text can stand for: it has a source and a dialect. -/
structure Filled (key : DependencyKey) : Prop where
  source : key.source.text ≠ []
  dialect : key.dialect ≠ []

/-- What of a key counts when keys are compared. -/
def identity (key : DependencyKey) : List Component × Text × Variant :=
  (key.source.components, key.dialect, key.variant)

theorem same_iff : left.same right = true ↔ left.identity = right.identity := by
  simp [same, identity, Path.same_iff, and_assoc]

theorem splitOn_text (plain : ':' ∉ key.dialect) :
    Text.splitOn ':' key.text =
      Text.splitOn ':' key.source.text ++ [key.dialect, key.variant.name.toList] := by
  have shape : key.text =
      key.source.text ++ ':' :: (key.dialect ++ ':' :: key.variant.name.toList) := by
    simp [DependencyKey.text]
  rw [shape, Text.splitOn_append, Text.splitOn_append, Text.splitOn_piece plain,
    Text.splitOn_piece (Variant.not_mem_name _)]
  rfl

theorem parse_text (filled : key.Filled) (plain : ':' ∉ key.dialect) :
    parse key.text = .ok key := by
  have whole := Text.joinWith_splitOn ':' key.source.text
  obtain ⟨first, pieces, reverse⟩ : ∃ first pieces,
      (Text.splitOn ':' key.source.text).reverse = first :: pieces := by
    cases split : (Text.splitOn ':' key.source.text).reverse with
    | nil =>
      rw [List.reverse_eq_nil_iff.mp split] at whole
      exact absurd whole.symm filled.source
    | cons first pieces => exact ⟨first, pieces, rfl⟩
  unfold parse
  rw [splitOn_text plain, List.reverse_append, reverse]
  change (if _ then _ else _) = _
  rw [← reverse, List.reverse_reverse, whole, if_neg (by simp [filled.source, filled.dialect]),
    Variant.ofName?_eq_some.mpr rfl]

/-- What is read from a text has a source and a dialect, and no colon in the dialect. -/
theorem filled_of_parse (read : parse text = .ok key) : key.Filled ∧ ':' ∉ key.dialect := by
  unfold parse at read
  split at read
  · rename_i variant dialect first more split
    have member : dialect ∈ Text.splitOn ':' text := by
      rw [← List.mem_reverse, split]
      simp
    dsimp only at read
    split at read
    · simp at read
    · rename_i full
      split at read
      · obtain rfl := Except.ok.inj read
        have both : Text.joinWith [':'] (first :: more).reverse ≠ [] ∧ dialect ≠ [] := by
          simpa using full
        exact ⟨⟨both.1, both.2⟩, Text.not_mem_of_mem_splitOn member⟩
      · simp at read
  · simp at read

/-- A key that was read is written as the text that it was read from. -/
theorem text_of_parse (read : parse text = .ok key) : key.text = text := by
  have plain := (filled_of_parse read).2
  unfold parse at read
  split at read
  · rename_i variant dialect first more split
    have pieces : Text.splitOn ':' text = (first :: more).reverse ++ [dialect, variant] := by
      rw [← List.reverse_reverse (Text.splitOn ':' text), split]
      simp
    have whole : ∀ piece ∈ (first :: more).reverse, ':' ∉ piece := fun piece member =>
      Text.not_mem_of_mem_splitOn (pieces ▸ List.mem_append_left _ member)
    dsimp only at read
    split at read
    · cases read
    · split at read
      · rename_i own known
        obtain rfl := Except.ok.inj read
        have again := splitOn_text plain
        dsimp only at again
        rw [Text.splitOn_joinWith (by simp) whole, Variant.ofName?_eq_some.mp known, ← pieces] at again
        rw [← Text.joinWith_splitOn ':' text, ← again, Text.joinWith_splitOn]
      · cases read
  · cases read

theorem parse_eq_ok : parse text = .ok key ↔ key.text = text ∧ key.Filled ∧ ':' ∉ key.dialect := by
  constructor
  · exact fun read => ⟨text_of_parse read, filled_of_parse read⟩
  · rintro ⟨rfl, filled, plain⟩
    exact parse_text filled plain

theorem eq_of_text_eq (filled : left.Filled) (filledToo : right.Filled) (plain : ':' ∉ left.dialect)
    (plainToo : ':' ∉ right.dialect) (same : left.text = right.text) : left = right := by
  have first := parse_text filled plain
  rw [same, parse_text filledToo plainToo] at first
  exact (Except.ok.inj first).symm

end DependencyKey

namespace ShaderCommand

theorem filled_of_parse {line : Text} {number : Nat} {command : ShaderCommand}
    (read : parse line number = .ok command) : (DependencyKey.ofCommand command).Filled := by
  obtain ⟨rest, -, dialect, source, -⟩ := parse_eq_ok.mp read
  exact ⟨source, dialect⟩

end ShaderCommand

end ShaderBuild
