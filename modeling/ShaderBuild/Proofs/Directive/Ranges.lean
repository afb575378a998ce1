import ShaderBuild.Proofs.Directive.Openers
import ShaderBuild.Proofs.Text.Slice
/-!
What a scan finds, said without the scan: ranges that begin with an opener and end with the first
closer behind it, in order and apart, so that no opener outside of them has a closer. A text has one
list of such ranges.
-/
namespace ShaderBuild

namespace Marker

/-- The range begins with an opener and ends with the first closer of its kind that begins at or after
the end of the opener, in a text that starts at `offset`; it says what stands between the two. -/
def Spans (offset : Nat) (text : Text) (marker : Marker) : Prop :=
  ∃ before kind body after,
    text = before ++ (marker.text ++ after) ∧ marker.start = offset + Text.byteLength before ∧
    marker.text = '<' :: kind :: (body ++ [kind, '>']) ∧
    (∀ front rest, body ++ kind :: '>' :: after = front ++ kind :: '>' :: rest →
      body.length ≤ front.length) ∧
    ((kind = '@' ∧ marker.directive = Directive.parse body) ∨
      (kind = '!' ∧ marker.directive = .comment))

/-- What stands at the offset belongs to the marker. -/
def Holds (marker : Marker) (offset : Nat) : Prop :=
  marker.start ≤ offset ∧ offset < marker.stop

end Marker

/-- The ranges cut out every opener that has a closer, in a text that starts at `offset`. -/
structure Delimited (offset : Nat) (text : Text) (found : List Marker) : Prop where
  ordered : found.Pairwise fun first second => first.stop ≤ second.start
  spans : ∀ marker ∈ found, marker.Spans offset text
  /-- An opener that starts in no range has no closer anywhere behind it. -/
  unclosed : ∀ before kind after, text = before ++ '<' :: kind :: after → kind = '@' ∨ kind = '!' →
    (∀ marker ∈ found, ¬marker.Holds (offset + Text.byteLength before)) →
      ¬[kind, '>'] <:+: after

/-! ### Texts in two parts -/

section
variable {offset : Nat} {front rest : Text} {marker : Marker} {early late found : List Marker}

namespace Marker

theorem Spans.offset_le (spans : marker.Spans offset rest) : offset ≤ marker.start := by
  obtain ⟨before, -, -, -, -, starts, -⟩ := spans
  omega

theorem Spans.start_lt_stop (spans : marker.Spans offset rest) : marker.start < marker.stop := by
  obtain ⟨-, kind, body, -, -, -, written, -⟩ := spans
  have wide := '<'.utf8Size_pos
  rw [stop, written, Text.byteLength]
  omega

theorem Spans.append_front (spans : marker.Spans (offset + Text.byteLength front) rest) :
    marker.Spans offset (front ++ rest) := by
  obtain ⟨before, kind, body, after, rfl, starts, details⟩ := spans
  refine ⟨front ++ before, kind, body, after, by simp, ?_, details⟩
  rw [starts, Text.byteLength_append, Nat.add_assoc]

theorem Spans.drop_front (spans : marker.Spans offset (front ++ rest))
    (past : offset + Text.byteLength front ≤ marker.start) :
    marker.Spans (offset + Text.byteLength front) rest := by
  obtain ⟨before, kind, body, after, same, starts, details⟩ := spans
  obtain ⟨between, rfl, rfl⟩ := append_of_byteLength_le same (by omega)
  refine ⟨between, kind, body, after, rfl, ?_, details⟩
  rw [starts, Text.byteLength_append, Nat.add_assoc]

end Marker

private theorem Delimited.drop_front (delimited : Delimited offset (front ++ rest) (early ++ late))
    (done : ∀ marker ∈ early, marker.stop ≤ offset + Text.byteLength front)
    (past : ∀ marker ∈ late, offset + Text.byteLength front ≤ marker.start) :
    Delimited (offset + Text.byteLength front) rest late where
  ordered := (List.pairwise_append.mp delimited.ordered).2.1
  spans marker member :=
    (delimited.spans marker (List.mem_append_right _ member)).drop_front (past marker member)
  unclosed before kind after same isKind outside := by
    have sum : offset + Text.byteLength (front ++ before) =
        offset + Text.byteLength front + Text.byteLength before := by
      rw [Text.byteLength_append, Nat.add_assoc]
    refine delimited.unclosed (front ++ before) kind after (by rw [same, List.append_assoc]) isKind ?_
    intro marker member
    rw [sum]
    rcases List.mem_append.mp member with before | behind
    · intro holds
      have ends := done marker before
      have within := holds.2
      omega
    · exact outside marker behind

private theorem Delimited.append_front (delimited : Delimited (offset + Text.byteLength front) rest late)
    (ordered : early.Pairwise fun first second => first.stop ≤ second.start)
    (spans : ∀ marker ∈ early, marker.Spans offset (front ++ rest))
    (done : ∀ marker ∈ early, marker.stop ≤ offset + Text.byteLength front)
    (unclosed : ∀ before kind after, front ++ rest = before ++ '<' :: kind :: after →
      kind = '@' ∨ kind = '!' → Text.byteLength before < Text.byteLength front →
      (∀ marker ∈ early, ¬marker.Holds (offset + Text.byteLength before)) → ¬[kind, '>'] <:+: after) :
    Delimited offset (front ++ rest) (early ++ late) where
  ordered := by
    refine List.pairwise_append.mpr ⟨ordered, delimited.ordered, fun first before second behind => ?_⟩
    exact Nat.le_trans (done first before) (delimited.spans second behind).offset_le
  spans := by
    intro marker member
    rcases List.mem_append.mp member with before | behind
    · exact spans marker before
    · exact (delimited.spans marker behind).append_front
  unclosed := by
    intro before kind after same isKind outside
    by_cases past : Text.byteLength before < Text.byteLength front
    · exact unclosed before kind after same isKind past fun marker member =>
        outside marker (List.mem_append_left _ member)
    · obtain ⟨between, rfl, rfl⟩ := append_of_byteLength_le same (Nat.le_of_not_lt past)
      refine delimited.unclosed between kind after rfl isKind fun marker member => ?_
      rw [Nat.add_assoc, ← Text.byteLength_append]
      exact outside marker (List.mem_append_right _ member)

end

/-! ### A text cut at its markers -/

namespace Mark

/-- The markers among the marks of a text that starts at `offset`. -/
def ranges (offset : Nat) : List Mark → List Marker
  | [] => []
  | .char c :: rest => ranges (offset + c.utf8Size) rest
  | .marker kind body :: rest =>
    ⟨offset, text (.marker kind body), Scan.directive kind body⟩
      :: ranges (offset + Text.byteLength (text (.marker kind body))) rest

theorem filterMap_pieces (offset : Nat) (marks : List Mark) :
    (pieces offset marks).filterMap Piece.marker? = ranges offset marks := by
  induction marks generalizing offset with
  | nil => rfl
  | cons mark rest ih =>
    cases mark with
    | char c =>
      rw [pieces, ranges, ← ih]
      split <;> rfl
    | marker kind body =>
      rw [pieces, ranges, ← ih]
      rfl

theorem markers_flat {marks : List Mark} (legible : Legible marks) :
    markers (flat marks) = ranges 0 marks := by
  rw [markers, scan_flat legible, filterMap_pieces]

end Mark

section
variable {offset : Nat} {text body rest : Text} {kind c : Char} {found : List Marker}

theorem length_le_of_unclosed (proper : kind ≠ '>') (whole : ¬Text.Meet kind '>' body)
    {front tail : Text} (same : body ++ kind :: '>' :: rest = front ++ kind :: '>' :: tail) :
    body.length ≤ front.length := by
  rcases List.append_eq_append_iff.mp same with ⟨between, rfl, -⟩ | ⟨between, rfl, closes⟩
  · simp
  · match between, closes with
    | [], _ => simp
    | [only], closes => exact absurd (List.cons.inj (List.cons.inj closes).2).1.symm proper
    | first :: second :: between, closes =>
      obtain ⟨opens, ends⟩ := List.cons.inj closes
      obtain ⟨rfl, -⟩ := List.cons.inj ends
      exact absurd ⟨front, between, by simp [opens]⟩ whole

private theorem Marker.Spans.unique {marker other : Marker} (spans : marker.Spans offset text)
    (another : other.Spans offset text) (same : marker.start = other.start) : marker = other := by
  obtain ⟨before, kind, body, after, rfl, starts, written, first, reads⟩ := spans
  obtain ⟨before', kind', body', after', whole, starts', written', first', reads'⟩ := another
  obtain ⟨between, rfl, rest⟩ := append_of_byteLength_le whole (by omega)
  obtain rfl : between = [] := by
    rw [starts, starts', Text.byteLength_append] at same
    exact eq_nil_of_byteLength (by omega)
  simp only [written, written', List.nil_append, List.cons_append, List.append_assoc] at rest
  obtain ⟨-, rest⟩ := List.cons.inj rest
  obtain ⟨rfl, rest⟩ := List.cons.inj rest
  have length : body.length = body'.length :=
    Nat.le_antisymm (first body' after' rest) (first' body after rest.symm)
  obtain ⟨rfl, -⟩ := List.append_inj rest length
  have directive : marker.directive = other.directive := by
    rcases reads with ⟨rfl, read⟩ | ⟨rfl, read⟩ <;> rcases reads' with ⟨kind, read'⟩ | ⟨kind, read'⟩
    · rw [read, read']
    · exact absurd kind (by decide)
    · exact absurd kind (by decide)
    · rw [read, read']
  cases marker
  cases other
  simp_all

private theorem spans_marker (isKind : kind = '@' ∨ kind = '!')
    (open_ : Scan.closing? kind body = none) :
    (⟨offset, Mark.text (.marker kind body), Scan.directive kind body⟩ : Marker).Spans offset
      (Mark.text (.marker kind body) ++ rest) := by
  have proper : kind ≠ '>' := by rcases isKind with rfl | rfl <;> decide
  refine ⟨[], kind, body, rest, rfl, rfl, rfl, ?_, ?_⟩
  · exact fun front tail same =>
      length_le_of_unclosed proper (Scan.closing?_eq_none_iff.mp open_) same
  · rcases isKind with rfl | rfl
    · exact .inl ⟨rfl, rfl⟩
    · exact .inr ⟨rfl, rfl⟩

theorem delimited_nil : Delimited offset [] found ↔ found = [] := by
  constructor
  · intro delimited
    refine List.eq_nil_iff_forall_not_mem.mpr fun marker member => ?_
    obtain ⟨before, kind, body, after, same, -, written, -⟩ := delimited.spans marker member
    simp [written] at same
  · rintro rfl
    exact ⟨.nil, by simp, by simp⟩

private theorem delimited_char
    (open_ : ∀ kind after, Scan.opener? (c :: rest) = some (kind, after) →
      Scan.closing? kind after = none) :
    Delimited offset (c :: rest) found ↔ Delimited (offset + c.utf8Size) rest found := by
  have unclosed : ∀ kind after, c :: rest = '<' :: kind :: after → kind = '@' ∨ kind = '!' →
      ¬[kind, '>'] <:+: after := by
    intro kind after same isKind
    exact Scan.closing?_eq_none_iff.mp (open_ kind after (Scan.opener?_eq_some_iff.mpr ⟨same, isKind⟩))
  constructor
  · intro delimited
    refine @Delimited.drop_front offset [c] rest [] found delimited (by simp) fun marker member => ?_
    obtain ⟨before, kind, body, after, same, starts, written, -, reads⟩ := delimited.spans marker member
    have isKind : kind = '@' ∨ kind = '!' := reads.imp And.left And.left
    cases before with
    | nil =>
      have closed : [kind, '>'] <:+: body ++ kind :: '>' :: after := ⟨body, after, by simp⟩
      exact absurd closed (unclosed kind _ (by simpa [written] using same) isKind)
    | cons d before =>
      obtain ⟨rfl, -⟩ := List.cons.inj same
      simp only [starts, Text.byteLength]
      omega
  · intro delimited
    refine @Delimited.append_front offset [c] rest [] found delimited .nil (by simp) (by simp) ?_
    intro before kind after same isKind inside _
    cases before with
    | nil => exact unclosed kind after same isKind
    | cons d before =>
      obtain ⟨rfl, -⟩ := List.cons.inj same
      simp only [Text.byteLength] at inside
      omega

private theorem delimited_marker (isKind : kind = '@' ∨ kind = '!')
    (open_ : Scan.closing? kind body = none) :
    Delimited offset (Mark.text (.marker kind body) ++ rest) found ↔
      ∃ later, found = ⟨offset, Mark.text (.marker kind body), Scan.directive kind body⟩ :: later ∧
        Delimited (offset + Text.byteLength (Mark.text (.marker kind body))) rest later := by
  have written : Mark.text (.marker kind body) ++ rest =
      '<' :: kind :: (body ++ kind :: '>' :: rest) := by simp [Mark.text]
  generalize same : (⟨offset, Mark.text (.marker kind body), Scan.directive kind body⟩ : Marker) = first
  have starts : first.start = offset := same ▸ rfl
  have stops : first.stop = offset + Text.byteLength (Mark.text (.marker kind body)) := same ▸ rfl
  have spans : first.Spans offset (Mark.text (.marker kind body) ++ rest) :=
    same ▸ spans_marker isKind open_
  constructor
  · intro delimited
    -- The opener in front has a closer, so it starts in a range, and only one range is there.
    obtain ⟨one, member, holds⟩ : ∃ one ∈ found, one.Holds offset := by
      by_contra none
      have passed := delimited.unclosed [] kind _ written isKind fun marker member holds =>
        none ⟨marker, member, holds⟩
      exact passed ⟨body, rest, by simp⟩
    have begins := (delimited.spans one member).offset_le
    obtain rfl : one = first :=
      (delimited.spans one member).unique spans (by rw [starts]; exact Nat.le_antisymm holds.1 begins)
    obtain ⟨early, later, rfl⟩ := List.append_of_mem member
    have nothing : early = [] := by
      refine List.eq_nil_iff_forall_not_mem.mpr fun marker before => ?_
      have ordered := (List.pairwise_append.mp delimited.ordered).2.2 marker before one (by simp)
      have earlier := delimited.spans marker (by simp [before])
      have begins := earlier.offset_le
      have wide := earlier.start_lt_stop
      omega
    subst nothing
    refine ⟨later, rfl, @Delimited.drop_front offset _ rest [one] later delimited (by simp [stops]) ?_⟩
    intro marker behind
    rw [← stops]
    exact (List.pairwise_cons.mp delimited.ordered).1 marker behind
  · rintro ⟨later, rfl, delimited⟩
    refine @Delimited.append_front offset _ rest [first] later delimited (List.pairwise_singleton _ _)
      (by simpa using spans) (by simp [stops]) ?_
    intro before kind after same isKind inside outside
    exact absurd ⟨by omega, by omega⟩ (outside first (by simp))

end

theorem delimited_flat_iff {marks : List Mark} (legible : Mark.Legible marks) {offset : Nat}
    {found : List Marker} :
    Delimited offset (Mark.flat marks) found ↔ found = Mark.ranges offset marks := by
  induction marks generalizing offset found with
  | nil => exact delimited_nil
  | cons mark rest ih =>
    cases mark with
    | char c => exact (delimited_char legible.1).trans (ih legible.2)
    | marker kind body =>
      obtain ⟨isKind, open_, later⟩ := legible
      refine (delimited_marker isKind open_).trans ?_
      constructor
      · rintro ⟨behind, rfl, delimited⟩
        rw [Mark.ranges, (ih later).mp delimited]
      · rintro rfl
        exact ⟨_, rfl, (ih later).mpr rfl⟩

theorem delimited_iff {text : Text} {found : List Marker} :
    Delimited 0 text found ↔ found = markers text := by
  obtain ⟨marks, rfl, legible⟩ := Mark.exists_legible text
  rw [delimited_flat_iff legible, Mark.markers_flat legible]

theorem mem_markers {text : Text} {found : Marker} (member : .marker found ∈ scan text) :
    found ∈ markers text :=
  List.mem_filterMap.mpr ⟨_, member, rfl⟩

theorem spans_of_mem_markers {text : Text} {marker : Marker} (member : marker ∈ markers text) :
    marker.Spans 0 text :=
  (delimited_iff.mpr rfl).spans marker member

theorem header_isInfix {text : Text} {header : FunctionHeader} {marker : Marker} (member : marker ∈ markers text)
    (begins : marker.directive = .functionBegin header) : header.text <:+: marker.text := by
  obtain ⟨-, kind, body, -, -, -, written, -, reads⟩ := spans_of_mem_markers member
  rcases reads with ⟨-, read⟩ | ⟨-, comment⟩
  · have inner : body <:+: marker.text := ⟨['<', kind], [kind, '>'], by simp [written]⟩
    exact (Directive.functionBegin_isInfix (read.symm.trans begins)).trans inner
  · rw [comment] at begins
    cases begins

/-! ### The first opener -/

theorem exists_firstOpener? {kind : Char} (isKind : kind = '@' ∨ kind = '!') (offset : Nat)
    (before after : Text) :
    ∃ found, firstOpener? offset (before ++ '<' :: kind :: after) = some found ∧
      found.1 ≤ offset + Text.byteLength before := by
  induction before generalizing offset with
  | nil =>
    have opened : Scan.opener? ('<' :: kind :: after) = some (kind, after) :=
      Scan.opener?_eq_some_iff.mpr ⟨rfl, isKind⟩
    exact ⟨(offset, '<' :: kind :: after), by simp [firstOpener?, opened], Nat.le_add_right _ _⟩
  | cons c before ih =>
    rw [List.cons_append, firstOpener?]
    split
    · exact ⟨_, rfl, Nat.le_add_right _ _⟩
    · obtain ⟨found, first, le⟩ := ih (offset + c.utf8Size)
      exact ⟨found, first, by rw [Text.byteLength]; omega⟩

theorem Marker.Spans.leftover? {text : Text} {marker : Marker} (spans : marker.Spans 0 text) :
    ∃ offset, leftover? text = some offset ∧ offset ≤ marker.start := by
  obtain ⟨before, kind, body, after, rfl, starts, written, -, reads⟩ := spans
  obtain ⟨found, first, le⟩ :=
    exists_firstOpener? (reads.imp And.left And.left) 0 before (body ++ kind :: '>' :: after)
  refine ⟨found.1, ?_, starts ▸ le⟩
  have same : before ++ (marker.text ++ after) =
      before ++ '<' :: kind :: (body ++ kind :: '>' :: after) := by simp [written]
  rw [ShaderBuild.leftover?, same, first]
  rfl

/-- A scan finds the ranges of a text: they are in order and apart, each runs from an opener to the
first closer behind it and says what stands between, and no opener outside of them has a closer; no
other list is so. Where there is no opener there is no range, and the first opener does not stand
behind the begin of the first range. -/
theorem delimited_iff_eq_markers (text : Text) :
    (∀ found, Delimited 0 text found ↔ found = markers text) ∧
    (leftover? text = none → markers text = []) ∧
    ∀ first rest, markers text = first :: rest →
      ∃ offset, leftover? text = some offset ∧ offset ≤ first.start := by
  have opens : ∀ first rest, markers text = first :: rest →
      ∃ offset, leftover? text = some offset ∧ offset ≤ first.start := by
    intro first rest same
    exact (spans_of_mem_markers (by simp [same])).leftover?
  refine ⟨fun found => delimited_iff, fun none => ?_, opens⟩
  cases same : markers text with
  | nil => rfl
  | cons first rest =>
    obtain ⟨offset, some, -⟩ := opens first rest same
    simp [none] at some

/-- Delimiters that overlap: the opener of a range is the last `<` in front of its sign, and its closer
begins behind the opener. -/
example : (markers "<<@>@><!>".toList).map (fun marker => (marker.start, marker.stop)) = [(1, 6)] := by
  decide +kernel

end ShaderBuild
