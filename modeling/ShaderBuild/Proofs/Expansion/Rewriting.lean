import ShaderBuild.Proofs.Directive.Ranges
import ShaderBuild.Proofs.Expansion.Replacement
/-!
Replacing markers, said without the marks of a text: in the place of each range stands the text that
was put for it, and all that stands between the ranges stays as it is.
-/
namespace ShaderBuild

/-- The second text is the first one, which starts at `offset`, with a text put for each of the
ranges. -/
inductive Rewritten : Nat → List (Marker × Text) → Text → Text → Prop where
  | rest (offset : Nat) (text : Text) : Rewritten offset [] text text
  | put {offset : Nat} {gap line text written : Text} {marker : Marker}
      {found : List (Marker × Text)} (starts : marker.start = offset + Text.byteLength gap)
      (later : Rewritten marker.stop found text written) :
      Rewritten offset ((marker, line) :: found) (gap ++ (marker.text ++ text))
        (gap ++ (line ++ written))

namespace Rewritten

variable {offset : Nat} {found : List (Marker × Text)} {text written : Text}

/-- What stands in front of the ranges stays. -/
theorem front (gap : Text) (later : Rewritten (offset + Text.byteLength gap) found text written) :
    Rewritten offset found (gap ++ text) (gap ++ written) := by
  cases later with
  | rest => exact .rest _ _
  | put starts later =>
    rw [← List.append_assoc gap, ← List.append_assoc gap]
    refine .put ?_ later
    rw [starts, Text.byteLength_append, Nat.add_assoc]

/-- For given ranges and lines there is one such text. -/
theorem unique {other : Text} (first : Rewritten offset found text written)
    (second : Rewritten offset found text other) : written = other := by
  generalize same : text = whole at second
  induction first generalizing whole other with
  | rest offset text =>
    cases second
    exact same
  | @put offset gap line text written marker found starts later ih =>
    cases second with
    | @put _ _ _ rest _ _ _ startsToo laterToo =>
      obtain ⟨between, rfl, behind⟩ := append_of_byteLength_le same (by omega)
      obtain rfl : between = [] := by
        rw [starts, Text.byteLength_append] at startsToo
        exact eq_nil_of_byteLength (by omega)
      rw [List.append_nil, ih _ (List.append_cancel_left behind) laterToo]

end Rewritten

namespace Mark

/-- The markers for which there is a text, with that text. -/
def put (replace : Directive → Option Text) (found : List Marker) : List (Marker × Text) :=
  found.filterMap fun marker => (replace marker.directive).map (marker, ·)

private theorem rewritten_flat (replace : Directive → Option Text) (offset : Nat)
    (marks : List Mark) :
    Rewritten offset (put replace (ranges offset marks)) (flat marks)
      (flat (marks.flatMap (rewrite replace))) := by
  induction marks generalizing offset with
  | nil => exact .rest _ _
  | cons mark rest ih =>
    cases mark with
    | char c => exact (ih (offset + c.utf8Size)).front [c]
    | marker kind body =>
      have later := ih (offset + Text.byteLength (text (.marker kind body)))
      have whole : flat (.marker kind body :: rest) = text (.marker kind body) ++ flat rest := rfl
      rw [ranges, put, List.filterMap_cons, List.flatMap_cons, flat_append, rewrite, whole]
      cases replace (Scan.directive kind body) with
      | none =>
        have kept : flat [.marker kind body] = text (.marker kind body) := List.append_nil _
        simp only [Option.map_none, kept]
        exact later.front (text (.marker kind body))
      | some line =>
        simp only [Option.map_some, flat_map_char]
        exact @Rewritten.put _ [] _ _ _ _ _ rfl later

end Mark

theorem rewritten_replaceMarkers (replace : Directive → Option Text) (text : Text) :
    Rewritten 0 (Mark.put replace (markers text)) text (replaceMarkers replace text).value := by
  obtain ⟨marks, rfl, legible⟩ := Mark.exists_legible text
  rw [Mark.markers_flat legible, Mark.replaceMarkers_flat replace legible]
  exact Mark.rewritten_flat replace 0 marks

end ShaderBuild
