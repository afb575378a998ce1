import ShaderBuild.Proofs.Text.Spacing
import ShaderBuild.Proofs.Text.Split
/-!
The lines of a text: the first one ends where a line end begins, none holds a line feed, and trimmed
lines are found again in the text made of them.
-/
namespace ShaderBuild.Text

/-- The line with which a text begins: up to the first line feed or the carriage return right in front of
it, and without a line feed all of the text. -/
inductive FirstLine : Text → Text → Prop where
  | whole (single : '\n' ∉ line) : FirstLine line line
  | feed (single : '\n' ∉ line) (plain : line.getLast? ≠ some '\r') (rest : Text) :
      FirstLine (line ++ '\n' :: rest) line
  | returnFeed (single : '\n' ∉ line) (rest : Text) :
      FirstLine (line ++ '\r' :: '\n' :: rest) line

variable {text line : Text} {pieces : List Text}

private theorem mem_closeLines (member : line ∈ closeLines pieces) :
    ∃ piece ∈ pieces, line <+: piece := by
  induction pieces with
  | nil => cases member
  | cons piece rest ih =>
    cases rest with
    | nil =>
      rw [closeLines] at member
      split at member
      · cases member
      · exact ⟨piece, List.mem_cons_self, List.mem_singleton.mp member ▸ List.prefix_rfl⟩
    | cons next rest =>
      rw [closeLines] at member
      rcases List.mem_cons.mp member with rfl | later
      · refine ⟨piece, List.mem_cons_self, ?_⟩
        unfold dropReturn
        split
        · exact List.dropLast_prefix piece
        · exact List.prefix_rfl
      · obtain ⟨own, listed, front⟩ := ih later
        exact ⟨own, List.mem_cons_of_mem _ listed, front⟩

theorem feed_not_mem_lines (member : line ∈ lines text) : '\n' ∉ line := by
  obtain ⟨piece, listed, front⟩ := mem_closeLines member
  exact fun inside => not_mem_of_mem_splitOn listed (front.subset inside)

private theorem closeLines_trimmed (trimmed : ∀ piece ∈ pieces, Trimmed piece) :
    closeLines pieces = pieces := by
  induction pieces with
  | nil => rfl
  | cons piece rest ih =>
    obtain ⟨some, same⟩ := trimmed piece List.mem_cons_self
    have later := ih fun other member => trimmed other (List.mem_cons_of_mem _ member)
    cases rest with
    | nil => rw [closeLines, if_neg (by simpa using some)]
    | cons next rest =>
      have ends : piece.getLast? ≠ Option.some '\r' := fun last =>
        absurd ((trim_eq_self_iff.mp same).2 '\r' last) (by decide)
      rw [closeLines, dropReturn, if_neg ends, later]

theorem FirstLine.isPrefix (first : FirstLine text line) : line <+: text := by
  cases first with
  | whole => exact List.prefix_rfl
  | feed => exact List.prefix_append _ _
  | returnFeed => exact List.prefix_append _ _

private theorem prefix_of_not_mem {front rest : Text} {c : Char}
    (begins : front <+: line ++ c :: rest) (plain : c ∉ front) : front <+: line := by
  rcases List.prefix_or_prefix_of_prefix begins (List.prefix_append line (c :: rest)) with
    short | ⟨more, rfl⟩
  · exact short
  · cases more with
    | nil => simp
    | cons d more =>
      obtain ⟨rfl, -⟩ := List.cons_prefix_cons.mp ((List.prefix_append_right_inj line).mp begins)
      exact absurd (by simp) plain

/-- What a text begins with belongs to its first line, if no line end is in it. -/
theorem FirstLine.begins {front : Text} (first : FirstLine text line) (begins : front <+: text)
    (plain : '\n' ∉ front ∧ '\r' ∉ front) : front <+: line := by
  cases first with
  | whole => exact begins
  | feed => exact prefix_of_not_mem begins plain.1
  | returnFeed => exact prefix_of_not_mem begins plain.2

private theorem firstLine_dropReturn {front : Text} (single : '\n' ∉ front) (rest : Text) :
    FirstLine (front ++ '\n' :: rest) (dropReturn front) := by
  unfold dropReturn
  split
  · rename_i ends
    obtain ⟨line, rfl⟩ := List.getLast?_eq_some_iff.mp ends
    rw [List.dropLast_concat, List.append_assoc]
    exact .returnFeed (fun inside => single (List.mem_append_left _ inside)) rest
  · rename_i plain
    exact .feed single plain rest

theorem firstLine_lines (some : text ≠ []) : FirstLine text ((lines text).head?.getD text) := by
  by_cases feed : '\n' ∈ text
  · obtain ⟨front, rest, rfl, single⟩ := List.eq_append_cons_of_mem feed
    rw [lines, splitOn_append, splitOn_piece single, List.singleton_append]
    cases more : splitOn '\n' rest with
    | nil =>
      rw [splitOn_eq] at more
      exact absurd more (List.splitOn_ne_nil _ _)
    | cons next more => exact firstLine_dropReturn single rest
  · rw [lines, splitOn_piece feed, closeLines, if_neg (by simpa using some)]
    exact .whole feed

theorem lines_joinWith (trimmed : ∀ piece ∈ pieces, Trimmed piece)
    (whole : ∀ piece ∈ pieces, '\n' ∉ piece) : lines (joinWith ['\n'] pieces) = pieces := by
  unfold lines
  by_cases none : pieces = []
  · subst none
    rfl
  · rw [splitOn_joinWith none whole, closeLines_trimmed trimmed]

end ShaderBuild.Text
