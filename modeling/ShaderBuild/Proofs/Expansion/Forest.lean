import Mathlib
import ShaderBuild.Proofs.Expansion.Balance
/-!
Function blocks as a forest. A text whose function markers match is a forest of blocks, and rendering
its blocks is a recursion over that forest; where the markers do not match, the error names the first
end that closes nothing, or the innermost block that is never closed.
-/
namespace ShaderBuild

/-- The markers of a text that begin or end a function block, in order. -/
def functionMarkers (text : Text) : List Marker :=
  (markers text).filter fun marker => marker.directive.isFunction

namespace Marker

def begins (marker : Marker) : Bool :=
  match marker.directive with
  | .functionBegin _ => true
  | _ => false

def ends (marker : Marker) : Bool :=
  match marker.directive with
  | .functionEnd => true
  | _ => false

theorem begins_iff {marker : Marker} :
    marker.begins = true ↔ ∃ header, marker.directive = .functionBegin header := by
  unfold begins
  split <;> simp_all

theorem ends_iff {marker : Marker} : marker.ends = true ↔ marker.directive = .functionEnd := by
  unfold ends
  split <;> simp_all

theorem not_ends_of_begins {marker : Marker} {header : FunctionHeader}
    (begins : marker.directive = .functionBegin header) : marker.ends = false := by
  simp [ends, begins]

theorem not_begins_of_ends {marker : Marker} (ends : marker.directive = .functionEnd) :
    marker.begins = false := by
  simp [begins, ends]

end Marker

/-- Among the markers are more ends than begins. -/
def Exceeds (marks : List Marker) : Prop :=
  marks.countP Marker.begins < marks.countP Marker.ends

/-- The first end marker with which there are more ends than begins. -/
def SurplusEnd (marks : List Marker) (marker : Marker) : Prop :=
  ∃ before after, marks = before ++ marker :: after ∧ marker.directive = .functionEnd ∧
    Exceeds (before ++ [marker]) ∧
    ∀ first one last, before = first ++ one :: last → one.directive = .functionEnd →
      ¬Exceeds (first ++ [one])

/-- A block that begins right before these markers ends among them. -/
def Closed (later : List Marker) : Prop :=
  ∃ first, first <+: later ∧ Exceeds first

/-- The marker begins the innermost block that is still open after all markers: it is never closed,
and every block that begins later is. -/
def InnermostOpen (marks : List Marker) (marker : Marker) : Prop :=
  ∃ before after, marks = before ++ marker :: after ∧ marker.begins = true ∧ ¬Closed after ∧
    ∀ first one last, after = first ++ one :: last → one.begins = true → Closed last

/-- The function blocks of a text and the text around them, in order. -/
inductive Forest where
  | empty
  /-- Text outside of function markers; markers of other kinds belong to it. -/
  | text (before : Forest) (written : Text)
  | block (before : Forest) (opening : Marker) (header : FunctionHeader)
      (begins : opening.directive = .functionBegin header) (inner : Forest) (closing : Marker)
      (ends : closing.directive = .functionEnd)

/-- Characters and markers, each marker placed where what stands before it ends. -/
def Placed (offset : Nat) : List Piece → Prop
  | [] => True
  | .char c :: rest => Placed (offset + c.utf8Size) rest
  | .marker found :: rest => found.start = offset ∧ Placed found.stop rest
  | .stray _ :: _ => False

namespace Forest

/-- The forest written out, in the order of the text. -/
def pieces : Forest → List Piece
  | .empty => []
  | .text before written => before.pieces ++ written.map .char
  | .block before opening _ _ inner closing _ =>
    before.pieces ++ .marker opening :: (inner.pieces ++ [.marker closing])

def markers (forest : Forest) : List Marker :=
  forest.pieces.filterMap Piece.marker?

/-- Text stays as it is; a block becomes one definition with the lines of its rendered body
continued. -/
def render : Forest → Text
  | .empty => []
  | .text before written => before.render ++ written
  | .block before _ header _ inner _ _ =>
    before.render ++ ("#define ".toList ++ header.text ++ " \\\n".toList ++
      Text.joinWith " \\\n".toList (Text.lines inner.render))

/-- The forest is that of the text: it is written out as the text, and its blocks are those of the
function markers, where these stand. -/
structure Reads (forest : Forest) (text : Text) : Prop where
  source : forest.pieces.flatMap Piece.text = text
  markers : forest.markers = functionMarkers text
  placed : Placed 0 forest.pieces

end Forest

/-! ### The pieces of a text, markers of other kinds written out -/

/-- What a piece is to function blocks: markers of other kinds are text. -/
def Piece.reduced : Piece → List Piece
  | .char c => [.char c]
  | .marker found => if found.directive.isFunction then [.marker found] else found.text.map .char
  | .stray _ => []

/-- A character, or a marker that begins or ends a function block. -/
def Piece.Functional : Piece → Prop
  | .char _ => True
  | .marker found => found.directive.isFunction = true
  | .stray _ => False

private theorem functional_of_reduced {piece one : Piece} (member : one ∈ piece.reduced) :
    one.Functional := by
  cases piece with
  | char c =>
    obtain rfl := List.mem_singleton.mp member
    trivial
  | stray offset => simp [Piece.reduced] at member
  | marker found =>
    rw [Piece.reduced] at member
    split at member
    · rename_i goes
      obtain rfl := List.mem_singleton.mp member
      exact goes
    · obtain ⟨c, _, rfl⟩ := List.mem_map.mp member
      trivial

private theorem placed_chars {offset : Nat} {rest : List Piece} (written : Text)
    (placed : Placed (offset + Text.byteLength written) rest) :
    Placed offset (written.map .char ++ rest) := by
  induction written generalizing offset with
  | nil => exact placed
  | cons c written ih => exact ih (by rwa [Nat.add_assoc])

theorem flatMap_text_chars (written : Text) :
    (written.map Piece.char).flatMap Piece.text = written := by
  induction written with
  | nil => rfl
  | cons c written ih => exact congrArg (c :: ·) ih

private theorem markers_chars (written : Text) :
    (written.map Piece.char).filterMap Piece.marker? = [] := by
  induction written with
  | nil => rfl
  | cons c written ih => exact ih

private theorem placed_pieces (offset : Nat) (marks : List Mark) :
    Placed offset ((Mark.pieces offset marks).flatMap Piece.reduced) := by
  induction marks generalizing offset with
  | nil => trivial
  | cons mark rest ih =>
    cases mark with
    | char c =>
      rw [Mark.pieces]
      split <;> exact ih _
    | marker kind body =>
      rw [Mark.pieces, List.flatMap_cons, Piece.reduced]
      split
      · exact ⟨rfl, ih _⟩
      · exact placed_chars _ (ih _)

private theorem text_pieces (offset : Nat) (marks : List Mark) :
    ((Mark.pieces offset marks).flatMap Piece.reduced).flatMap Piece.text = Mark.flat marks := by
  induction marks generalizing offset with
  | nil => rfl
  | cons mark rest ih =>
    cases mark with
    | char c =>
      rw [Mark.pieces, Mark.flat_char, ← ih]
      split <;> rfl
    | marker kind body =>
      rw [Mark.pieces, List.flatMap_cons, List.flatMap_append, ih, Piece.reduced]
      split
      · simp [Piece.text, Mark.text]
      · rw [flatMap_text_chars]
        rfl

private theorem markers_reduced (pieces : List Piece) :
    (pieces.flatMap Piece.reduced).filterMap Piece.marker? =
      (pieces.filterMap Piece.marker?).filter fun marker => marker.directive.isFunction := by
  induction pieces with
  | nil => rfl
  | cons piece rest ih =>
    rw [List.flatMap_cons, List.filterMap_append, ih]
    cases piece with
    | char c => rfl
    | stray offset => rfl
    | marker found =>
      by_cases goes : found.directive.isFunction = true
      · simp [Piece.reduced, Piece.marker?, goes]
      · rw [Piece.reduced, if_neg goes, markers_chars]
        simp [Piece.marker?, goes]

/-- The pieces of a text as function blocks see them. -/
def reducedPieces (text : Text) : List Piece :=
  (scan text).flatMap Piece.reduced

private theorem placed_reducedPieces (text : Text) : Placed 0 (reducedPieces text) := by
  obtain ⟨marks, rfl, legible⟩ := Mark.exists_legible text
  rw [reducedPieces, Mark.scan_flat legible]
  exact placed_pieces 0 marks

private theorem text_reducedPieces (text : Text) :
    (reducedPieces text).flatMap Piece.text = text := by
  obtain ⟨marks, rfl, legible⟩ := Mark.exists_legible text
  rw [reducedPieces, Mark.scan_flat legible]
  exact text_pieces 0 marks

private theorem markers_reducedPieces (text : Text) :
    (reducedPieces text).filterMap Piece.marker? = functionMarkers text :=
  markers_reduced (scan text)

private theorem Placed.le_start {offset : Nat} {pieces : List Piece} (placed : Placed offset pieces)
    {found : Marker} (member : .marker found ∈ pieces) : offset ≤ found.start := by
  induction pieces generalizing offset with
  | nil => simp at member
  | cons piece rest ih =>
    cases piece with
    | char c =>
      have later : offset + c.utf8Size ≤ found.start := ih placed (by simpa using member)
      omega
    | stray other => exact placed.elim
    | marker first =>
      obtain ⟨starts, placed⟩ := placed
      rcases List.mem_cons.mp member with same | later
      · obtain rfl := Piece.marker.inj same
        exact starts.ge
      · have passed : first.stop ≤ found.start := ih placed later
        unfold Marker.stop at passed
        omega

private theorem not_placed_before {offset : Nat} {c : Char} {front rest : List Piece}
    {found : Marker} (placed : Placed offset (.char c :: front)) (starts : found.start = offset)
    (markers : front.filterMap Piece.marker? = found :: rest.filterMap Piece.marker?) : False := by
  have listed : found ∈ front.filterMap Piece.marker? := by simp [markers]
  obtain ⟨piece, member, same⟩ := List.mem_filterMap.mp listed
  have isMarker : piece = .marker found := by
    cases piece <;> simp_all [Piece.marker?]
  have later : offset + c.utf8Size ≤ found.start :=
    @Placed.le_start _ front placed _ (isMarker ▸ member)
  have wide := c.utf8Size_pos
  omega

private theorem Placed.unique {offset : Nat} {first last : List Piece}
    (placed : Placed offset first) (placedLast : Placed offset last)
    (text : first.flatMap Piece.text = last.flatMap Piece.text)
    (markers : first.filterMap Piece.marker? = last.filterMap Piece.marker?) : first = last := by
  induction first generalizing offset last with
  | nil =>
    cases last with
    | nil => rfl
    | cons piece rest => cases piece <;> simp_all [Piece.text, Piece.marker?, Placed]
  | cons piece front ih =>
    cases piece with
    | stray other => exact placed.elim
    | char c =>
      cases last with
      | nil => simp [Piece.text] at text
      | cons other rest =>
        cases other with
        | stray other => exact placedLast.elim
        | char d =>
          obtain ⟨rfl, later⟩ := List.cons.inj text
          rw [ih placed placedLast later markers]
        | marker found => exact (not_placed_before placed placedLast.1 markers).elim
    | marker found =>
      cases last with
      | nil => simp [Piece.marker?] at markers
      | cons other rest =>
        cases other with
        | stray other => exact placedLast.elim
        | char d => exact (not_placed_before placedLast placed.1 markers.symm).elim
        | marker other =>
          obtain ⟨rfl, later⟩ := List.cons.inj markers
          rw [ih placed.2 placedLast.2 (List.append_cancel_left text) later]

theorem Forest.Reads.pieces_eq {forest : Forest} {text : Text} (reads : forest.Reads text) :
    forest.pieces = reducedPieces text :=
  reads.placed.unique (placed_reducedPieces text) (reads.source.trans (text_reducedPieces text).symm)
    (reads.markers.trans (markers_reducedPieces text).symm)

theorem Forest.reads_of_pieces {forest : Forest} {text : Text}
    (same : forest.pieces = reducedPieces text) : forest.Reads text where
  source := same ▸ text_reducedPieces text
  markers := by
    rw [Forest.markers, same]
    exact markers_reducedPieces text
  placed := same ▸ placed_reducedPieces text

/-! ### Texts that end inside of blocks -/

/-- What was read up to some point: the forest around all open blocks, and of each open block what
was read of it, innermost last. -/
inductive Spine where
  | root (forest : Forest)
  | nest (outer : Spine) (opening : Marker) (header : FunctionHeader)
      (begins : opening.directive = .functionBegin header) (inner : Forest)

namespace Spine

def pieces : Spine → List Piece
  | .root forest => forest.pieces
  | .nest outer opening _ _ inner => outer.pieces ++ .marker opening :: inner.pieces

def markers (spine : Spine) : List Marker :=
  spine.pieces.filterMap Piece.marker?

/-- The blocks that are open, each with what its forest renders to. -/
def opened : Spine → List OpenBlock
  | .root _ => []
  | .nest outer opening header _ inner =>
    ⟨header.text, opening.start, inner.render.reverse⟩ :: outer.opened

/-- What is written outside of all open blocks. -/
def written : Spine → Text
  | .root forest => forest.render
  | .nest outer _ _ _ _ => outer.written

/-- The innermost forest goes on. -/
def grow (next : Forest → Forest) : Spine → Spine
  | .root forest => .root (next forest)
  | .nest outer opening header begins inner => .nest outer opening header begins (next inner)

theorem pieces_grow {next : Forest → Forest} {written : List Piece}
    (grows : ∀ forest, (next forest).pieces = forest.pieces ++ written) (spine : Spine) :
    (spine.grow next).pieces = spine.pieces ++ written := by
  cases spine <;> simp [grow, pieces, grows]

/-- Pieces are read as a spine up to the first end that closes nothing. -/
theorem exists_of_functional {pieces : List Piece}
    (functional : ∀ piece ∈ pieces, piece.Functional) :
    (∃ spine : Spine, spine.pieces = pieces) ∨
      ∃ (forest : Forest) (marker : Marker) (rest : List Piece), marker.directive = .functionEnd ∧
        pieces = forest.pieces ++ .marker marker :: rest := by
  induction pieces using List.reverseRecOn with
  | nil => exact .inl ⟨.root .empty, rfl⟩
  | append_singleton front piece ih =>
    rcases ih fun one member => functional one (by simp [member]) with
      ⟨spine, rfl⟩ | ⟨forest, marker, rest, ends, rfl⟩
    · cases piece with
      | stray offset => exact (functional (.stray offset) (by simp)).elim
      | char c => exact .inl ⟨spine.grow (.text · [c]), pieces_grow (fun _ => rfl) spine⟩
      | marker found =>
        have goes : found.directive.isFunction = true := functional (.marker found) (by simp)
        cases read : found.directive with
        | functionBegin header => exact .inl ⟨.nest spine found header read .empty, rfl⟩
        | functionEnd =>
          cases spine with
          | root forest => exact .inr ⟨forest, found, [], read, rfl⟩
          | nest outer opening header begins inner =>
            refine .inl ⟨outer.grow (.block · opening header begins inner found read), ?_⟩
            rw [pieces_grow (fun _ => rfl)]
            simp [pieces]
        | _ => simp [read, Directive.isFunction] at goes
    · exact .inr ⟨forest, marker, rest ++ [piece], ends, by simp⟩

end Spine

/-! ### Counting begins and ends -/

/-- No prefix of the markers has more ends than begins. -/
def Steady (marks : List Marker) : Prop :=
  ∀ first, first <+: marks → ¬Exceeds first

theorem Closed.append {later : List Marker} (closed : Closed later) (more : List Marker) :
    Closed (later ++ more) := by
  obtain ⟨first, isPrefix, exceeds⟩ := closed
  exact ⟨first, isPrefix.trans (List.prefix_append _ _), exceeds⟩

private theorem append_eq_append_cons {α : Type} {front rest first last : List α} {one : α}
    (same : front ++ rest = first ++ one :: last) :
    (∃ between, front = first ++ one :: between ∧ last = between ++ rest) ∨
      ∃ between, first = front ++ between ∧ rest = between ++ one :: last := by
  rcases List.append_eq_append_iff.mp same with ⟨between, earlier, later⟩ | ⟨between, earlier, later⟩
  · exact .inr ⟨between, earlier, later⟩
  · cases between with
    | nil => exact .inr ⟨[], by simp_all, by simp_all⟩
    | cons head between =>
      obtain ⟨rfl, follows⟩ := List.cons.inj later
      exact .inl ⟨between, earlier, follows⟩

private theorem prefix_append {α : Type} {first front rest : List α} (isPrefix : first <+: front ++ rest) :
    first <+: front ∨ ∃ between, first = front ++ between ∧ between <+: rest := by
  obtain ⟨last, same⟩ := isPrefix
  rcases List.append_eq_append_iff.mp same with ⟨between, earlier, _⟩ | ⟨between, earlier, later⟩
  · exact .inl ⟨between, earlier.symm⟩
  · exact .inr ⟨between, earlier, last, later.symm⟩

namespace Forest

@[simp] theorem markers_empty : markers .empty = [] := rfl

@[simp] theorem markers_text (before : Forest) (written : Text) :
    markers (.text before written) = before.markers := by
  rw [markers, pieces, List.filterMap_append, markers_chars, List.append_nil]
  rfl

@[simp] theorem markers_block (before : Forest) (opening : Marker) (header : FunctionHeader)
    (begins : opening.directive = .functionBegin header) (inner : Forest) (closing : Marker)
    (ends : closing.directive = .functionEnd) :
    markers (.block before opening header begins inner closing ends) =
      before.markers ++ opening :: (inner.markers ++ [closing]) := by
  simp [markers, pieces, Piece.marker?]

theorem countP_markers (forest : Forest) :
    forest.markers.countP Marker.begins = forest.markers.countP Marker.ends := by
  induction forest with
  | empty => rfl
  | text before written ih => simpa using ih
  | block before opening header begins inner closing ends ihBefore ihInner =>
    have opens : opening.begins = true := Marker.begins_iff.mpr ⟨header, begins⟩
    have closes : closing.ends = true := Marker.ends_iff.mpr ends
    simp [List.countP_append, opens, closes, Marker.not_ends_of_begins begins,
      Marker.not_begins_of_ends ends, ihBefore, ihInner]

theorem not_exceeds (forest : Forest) : ¬Exceeds forest.markers := by
  unfold Exceeds
  have even := forest.countP_markers
  omega

/-- In no prefix of a forest are more ends than begins. -/
theorem steady_markers (forest : Forest) : Steady forest.markers := by
  induction forest with
  | empty =>
    intro first isPrefix
    obtain rfl := List.prefix_nil.mp isPrefix
    exact Nat.lt_irrefl 0
  | text before written ih => simpa using ih
  | block before opening header begins inner closing ends ihBefore ihInner =>
    have opens : opening.begins = true := Marker.begins_iff.mpr ⟨header, begins⟩
    have evenBefore := before.countP_markers
    intro first isPrefix
    rw [markers_block] at isPrefix
    rcases prefix_append isPrefix with earlier | ⟨block, rfl, within⟩
    · exact ihBefore first earlier
    · cases block with
      | nil =>
        rw [List.append_nil]
        exact before.not_exceeds
      | cons one block =>
        obtain ⟨rfl, behind⟩ := List.cons_prefix_cons.mp within
        rcases prefix_append behind with inside | ⟨tail, rfl, last⟩
        · have steady := ihInner block inside
          simp only [Exceeds, List.countP_append, List.countP_cons, opens,
            Marker.not_ends_of_begins begins] at steady ⊢
          simp only [↓reduceIte, Bool.false_eq_true]
          omega
        · have evenInner := inner.countP_markers
          have single : tail.countP Marker.ends ≤ 1 :=
            List.countP_le_length.trans last.length_le
          simp only [Exceeds, List.countP_append, List.countP_cons, opens,
            Marker.not_ends_of_begins begins]
          simp only [↓reduceIte, Bool.false_eq_true]
          omega

/-- Every block of a forest ends in it. -/
theorem closed_of_begins (forest : Forest) {first last : List Marker} {one : Marker}
    (same : forest.markers = first ++ one :: last) (begins : one.begins = true) : Closed last := by
  induction forest generalizing first last with
  | empty => simp at same
  | text before written ih => exact ih (by simpa using same)
  | block before opening header opens inner closing ends ihBefore ihInner =>
    rw [markers_block] at same
    rcases append_eq_append_cons same with ⟨between, earlier, rfl⟩ | ⟨between, rfl, within⟩
    · exact (ihBefore earlier).append _
    · cases between with
      | nil =>
        obtain ⟨rfl, rfl⟩ := List.cons.inj within
        refine ⟨inner.markers ++ [closing], List.prefix_refl _, ?_⟩
        have even := inner.countP_markers
        simp only [Exceeds, List.countP_append, List.countP_singleton, Marker.ends_iff.mpr ends,
          Marker.not_begins_of_ends ends]
        simp only [↓reduceIte, Bool.false_eq_true]
        omega
      | cons head between =>
        obtain ⟨-, within⟩ := List.cons.inj within
        rcases append_eq_append_cons within with ⟨later, inside, rfl⟩ | ⟨later, rfl, alone⟩
        · exact (ihInner inside).append _
        · cases later with
          | nil =>
            obtain ⟨rfl, -⟩ := List.cons.inj alone
            simp [Marker.not_begins_of_ends ends] at begins
          | cons head later => simp at alone

end Forest

namespace Spine

@[simp] theorem markers_root (forest : Forest) : markers (.root forest) = forest.markers := rfl

@[simp] theorem markers_nest (outer : Spine) (opening : Marker) (header : FunctionHeader)
    (begins : opening.directive = .functionBegin header) (inner : Forest) :
    markers (.nest outer opening header begins inner) =
      outer.markers ++ opening :: inner.markers := by
  simp [markers, pieces, Piece.marker?, Forest.markers]

theorem countP_markers (spine : Spine) :
    spine.markers.countP Marker.ends ≤ spine.markers.countP Marker.begins := by
  induction spine with
  | root forest => exact forest.countP_markers.ge
  | nest outer opening header begins inner ih =>
    have even := inner.countP_markers
    simp only [markers_nest, List.countP_append, List.countP_cons,
      Marker.not_ends_of_begins begins, Bool.false_eq_true, ↓reduceIte]
    omega

theorem steady_markers (spine : Spine) : Steady spine.markers := by
  induction spine with
  | root forest => exact forest.steady_markers
  | nest outer opening header begins inner ih =>
    intro first isPrefix
    rw [markers_nest] at isPrefix
    rcases prefix_append isPrefix with earlier | ⟨block, rfl, within⟩
    · exact ih first earlier
    · have count := outer.countP_markers
      cases block with
      | nil => simpa [Exceeds] using count
      | cons one block =>
        obtain ⟨rfl, inside⟩ := List.cons_prefix_cons.mp within
        have steady := inner.steady_markers block inside
        simp only [Exceeds, List.countP_append, List.countP_cons,
          Marker.not_ends_of_begins begins, Bool.false_eq_true, ↓reduceIte] at steady ⊢
        omega

end Spine

/-! ### Where the markers do not match -/

section
variable {marks : List Marker} {marker other : Marker}

theorem Steady.not_surplusEnd (steady : Steady marks) : ¬SurplusEnd marks marker := by
  rintro ⟨before, after, rfl, -, exceeds, -⟩
  exact steady (before ++ [marker]) ⟨after, by simp⟩ exceeds

/-- There is only one first surplus end. -/
theorem SurplusEnd.unique (surplus : SurplusEnd marks marker) (another : SurplusEnd marks other) :
    marker = other := by
  obtain ⟨before, after, rfl, ends, exceeds, first⟩ := surplus
  obtain ⟨before', after', same, ends', exceeds', first'⟩ := another
  rcases append_eq_append_cons same with ⟨between, rfl, -⟩ | ⟨between, rfl, later⟩
  · exact (first _ _ _ rfl ends' exceeds').elim
  · cases between with
    | nil => exact (List.cons.inj later).1
    | cons head between =>
      obtain ⟨rfl, -⟩ := List.cons.inj later
      exact (first' _ _ _ rfl ends exceeds).elim

/-- There is only one innermost open block. -/
theorem InnermostOpen.unique (innermost : InnermostOpen marks marker)
    (another : InnermostOpen marks other) : marker = other := by
  obtain ⟨before, after, rfl, begins, unclosed, later⟩ := innermost
  obtain ⟨before', after', same, begins', unclosed', later'⟩ := another
  rcases append_eq_append_cons same with ⟨between, rfl, rfl⟩ | ⟨between, rfl, follows⟩
  · exact (unclosed (later' _ _ _ rfl begins)).elim
  · cases between with
    | nil => exact (List.cons.inj follows).1
    | cons head between =>
      obtain ⟨rfl, rfl⟩ := List.cons.inj follows
      exact (unclosed' (later _ _ _ rfl begins')).elim

theorem Forest.surplusEnd (forest : Forest) (ends : marker.directive = .functionEnd)
    (rest : List Marker) : SurplusEnd (forest.markers ++ marker :: rest) marker := by
  refine ⟨forest.markers, rest, rfl, ends, ?_, fun first one last same _ => ?_⟩
  · have even := forest.countP_markers
    simp only [Exceeds, List.countP_append, List.countP_singleton, Marker.ends_iff.mpr ends,
      Marker.not_begins_of_ends ends]
    simp only [↓reduceIte, Bool.false_eq_true]
    omega
  · exact forest.steady_markers _ ⟨last, by simp [same]⟩

theorem Spine.innermostOpen (outer : Spine) {header : FunctionHeader}
    (begins : marker.directive = .functionBegin header) (inner : Forest) :
    InnermostOpen (Spine.nest outer marker header begins inner).markers marker := by
  refine ⟨outer.markers, inner.markers, by simp, Marker.begins_iff.mpr ⟨header, begins⟩, ?_, ?_⟩
  · rintro ⟨first, isPrefix, exceeds⟩
    exact inner.steady_markers first isPrefix exceeds
  · exact fun first one last same begins => inner.closed_of_begins same begins

end

/-! ### Taking in the pieces -/

namespace Blocks

variable {path : Path} {whole : Text}

theorem push_push (blocks : Blocks) (first second : Text) :
    (blocks.push first).push second = blocks.push (first ++ second) := by
  obtain ⟨opened, output, closed⟩ := blocks
  cases opened <;> simp [push]

theorem push_nil (blocks : Blocks) : blocks.push [] = blocks := by
  obtain ⟨opened, output, closed⟩ := blocks
  cases opened <;> rfl

private theorem feedAll_append (blocks : Blocks) (first second : List Piece) :
    feedAll path whole blocks (first ++ second) =
      (feedAll path whole blocks first).bind fun next => feedAll path whole next second :=
  List.foldlM_append

private theorem feedAll_written (blocks : Blocks) (written : Text) :
    feedAll path whole blocks (written.map .char) = .ok (blocks.push written) := by
  induction written generalizing blocks with
  | nil => exact congrArg Except.ok blocks.push_nil.symm
  | cons c written ih =>
    rw [List.map_cons, feedAll, List.foldlM_cons]
    exact (ih (blocks.push [c])).trans (congrArg Except.ok (blocks.push_push [c] written))

private theorem feedAll_reduced (blocks : Blocks) (pieces : List Piece) :
    feedAll path whole blocks (pieces.flatMap Piece.reduced) = feedAll path whole blocks pieces := by
  induction pieces generalizing blocks with
  | nil => rfl
  | cons piece rest ih =>
    have single : feedAll path whole blocks piece.reduced = blocks.feed path whole piece := by
      cases piece with
      | char c => rfl
      | stray offset => rfl
      | marker found =>
        rw [Piece.reduced]
        split
        · simp [feedAll]
        · rename_i stays
          rw [feedAll_written, feed]
          cases read : found.directive <;> simp_all [Directive.isFunction]
    rw [List.flatMap_cons, feedAll_append, single, feedAll, List.foldlM_cons]
    exact congrArg _ (funext ih)

private theorem feedAll_opening {opening : Marker} {header : FunctionHeader}
    (begins : opening.directive = .functionBegin header) (blocks : Blocks) (rest : List Piece) :
    feedAll path whole blocks (.marker opening :: rest) =
      feedAll path whole
        { blocks with opened := ⟨header.text, opening.start, []⟩ :: blocks.opened } rest := by
  rw [feedAll, List.foldlM_cons, feed, begins]
  rfl

private theorem feedAll_closing {closing : Marker} (ends : closing.directive = .functionEnd)
    (block : OpenBlock) (outer : List OpenBlock) (output : Text) (closed : Nat) :
    feedAll path whole ⟨block :: outer, output, closed⟩ [.marker closing] =
      .ok ((⟨outer, output, closed + 1⟩ : Blocks).push
        (macroText block.header block.body.reverse)) := by
  rw [feedAll, List.foldlM_cons, feed, ends]
  rfl

private theorem feedAll_surplus {marker : Marker} (ends : marker.directive = .functionEnd)
    (output : Text) (closed : Nat) (rest : List Piece) :
    feedAll path whole ⟨[], output, closed⟩ (.marker marker :: rest) =
      .error (.unbalancedEnd path marker.start (Excerpt.around whole marker.start)) := by
  rw [feedAll, List.foldlM_cons, feed, ends]
  rfl

private theorem feedAll_forest (forest : Forest) (blocks : Blocks) :
    ∃ closed, feedAll path whole blocks forest.pieces =
      .ok { blocks.push forest.render with closed := closed } := by
  induction forest generalizing blocks with
  | empty => exact ⟨blocks.closed, by rw [Forest.render, push_nil]; rfl⟩
  | text before written ih =>
    obtain ⟨closed, earlier⟩ := ih blocks
    refine ⟨closed, ?_⟩
    rw [Forest.pieces, feedAll_append, earlier]
    refine (feedAll_written _ written).trans ?_
    rw [Forest.render, ← push_push]
    obtain ⟨opened, output, count⟩ := blocks.push before.render
    cases opened <;> rfl
  | block before opening header begins inner closing ends ihBefore ihInner =>
    obtain ⟨count, earlier⟩ := ihBefore blocks
    rw [Forest.pieces, feedAll_append, earlier, Forest.render, ← push_push]
    obtain ⟨opened, output, old⟩ := blocks.push before.render
    obtain ⟨closed, inside⟩ := ihInner ⟨⟨header.text, opening.start, []⟩ :: opened, output, count⟩
    refine ⟨closed + 1, ?_⟩
    refine (feedAll_opening begins _ _).trans ?_
    rw [feedAll_append, inside]
    refine (feedAll_closing ends _ _ _ _).trans ?_
    simp only [List.append_nil, List.reverse_reverse]
    cases opened <;> rfl

private theorem feedAll_spine (spine : Spine) :
    ∃ closed, feedAll path whole empty spine.pieces =
      .ok ⟨spine.opened, spine.written.reverse, closed⟩ := by
  induction spine with
  | root forest =>
    obtain ⟨closed, done⟩ := @feedAll_forest path whole forest empty
    exact ⟨closed, done.trans (by simp [push, empty, Spine.opened, Spine.written])⟩
  | nest outer opening header begins inner ih =>
    obtain ⟨count, earlier⟩ := ih
    obtain ⟨closed, inside⟩ := @feedAll_forest path whole inner
      ⟨⟨header.text, opening.start, []⟩ :: outer.opened, outer.written.reverse, count⟩
    refine ⟨closed, ?_⟩
    rw [Spine.pieces, feedAll_append, earlier, Except.bind, feedAll_opening begins, inside]
    simp [push, Spine.opened, Spine.written]

private theorem value_of_reducedPieces (path : Path) (text : Text) :
    (defineBlocks path text).run.value =
      (feedAll path text empty (reducedPieces text)).bind (finish path) := by
  rw [value_defineBlocks, reducedPieces, feedAll_reduced]

private theorem value_of_surplus {text : Text} {forest : Forest} {marker : Marker}
    {rest : List Piece} (ends : marker.directive = .functionEnd)
    (same : reducedPieces text = forest.pieces ++ .marker marker :: rest) :
    (defineBlocks path text).run.value =
      .error (.unbalancedEnd path marker.start (Excerpt.around text marker.start)) := by
  obtain ⟨closed, done⟩ := @feedAll_forest path text forest empty
  rw [value_of_reducedPieces, same, feedAll_append, done]
  simp only [Except.bind, push, empty, feedAll_surplus ends]

private theorem value_of_spine {text : Text} (spine : Spine)
    (same : spine.pieces = reducedPieces text) :
    (defineBlocks path text).run.value =
      match spine.opened with
      | [] => .ok spine.written
      | block :: _ => .error (.unterminatedFunction path block.header block.offset) := by
  obtain ⟨closed, done⟩ := @feedAll_spine path text spine
  rw [value_of_reducedPieces, ← same, done]
  cases spine.opened with
  | nil => exact congrArg Except.ok (List.reverse_reverse spine.written)
  | cons block rest => rfl

end Blocks

theorem Forest.Reads.value_defineBlocks {forest : Forest} {text : Text} (reads : forest.Reads text)
    (path : Path) : (defineBlocks path text).run.value = .ok forest.render :=
  Blocks.value_of_spine (.root forest) reads.pieces_eq

/-- A text whose blocks are rendered is a forest. -/
theorem exists_reads_of_value {path : Path} {text output : Text}
    (accepted : (defineBlocks path text).run.value = .ok output) :
    ∃ forest : Forest, forest.Reads text := by
  have functional : ∀ piece ∈ reducedPieces text, piece.Functional := by
    intro piece member
    obtain ⟨whole, -, part⟩ := List.mem_flatMap.mp member
    exact functional_of_reduced part
  rcases Spine.exists_of_functional functional with
    ⟨spine, same⟩ | ⟨forest, last, rest, ends, same⟩
  · cases spine with
    | root forest => exact ⟨forest, Forest.reads_of_pieces same⟩
    | nest outer opening header begins inner =>
      have open_ := @Blocks.value_of_spine path text _ same
      simp [accepted, Spine.opened] at open_
  · have surplus := @Blocks.value_of_surplus path text forest last rest ends same
    simp [accepted] at surplus

/-- Rendering function blocks: the first end marker that has more ends than begins is an error; then
the innermost block still open at the end is one; a text without either is a forest of blocks, and
the result is this forest rendered, inner blocks before the block around them. -/
theorem defineBlocks_eq_render (path : Path) (text : Text) :
    (∀ marker, SurplusEnd (functionMarkers text) marker → (defineBlocks path text).run.value =
      .error (.unbalancedEnd path marker.start (Excerpt.around text marker.start))) ∧
    ((∀ marker, ¬SurplusEnd (functionMarkers text) marker) →
      (∀ marker header, InnermostOpen (functionMarkers text) marker →
        marker.directive = .functionBegin header → (defineBlocks path text).run.value =
          .error (.unterminatedFunction path header.text marker.start)) ∧
      ((∀ marker, ¬InnermostOpen (functionMarkers text) marker) →
        ∃ forest : Forest, forest.Reads text)) ∧
    ∀ forest : Forest, forest.Reads text →
      (defineBlocks path text).run.value = .ok forest.render := by
  have functional : ∀ piece ∈ reducedPieces text, piece.Functional := by
    intro piece member
    obtain ⟨whole, _, part⟩ := List.mem_flatMap.mp member
    exact functional_of_reduced part
  have rendered (forest : Forest) (reads : forest.Reads text) :
      (defineBlocks path text).run.value = .ok forest.render :=
    Blocks.value_of_spine (.root forest) reads.pieces_eq
  have marks := markers_reducedPieces text
  rcases Spine.exists_of_functional functional with
    ⟨spine, same⟩ | ⟨forest, last, rest, ends, same⟩
  · have read : spine.markers = functionMarkers text := by rw [Spine.markers, same, marks]
    refine ⟨fun marker surplus => ?_, fun _ => ⟨fun marker header innermost begins => ?_, ?_⟩, rendered⟩
    · exact (spine.steady_markers.not_surplusEnd (read ▸ surplus)).elim
    · have result := @Blocks.value_of_spine path text spine same
      cases spine with
      | root forest =>
        obtain ⟨before, after, split, begins, unclosed, -⟩ := innermost
        exact (unclosed (forest.closed_of_begins (read.trans split) begins)).elim
      | nest outer opening own beginsOwn inner =>
        obtain rfl := (outer.innermostOpen beginsOwn inner).unique (read ▸ innermost)
        obtain rfl := Directive.functionBegin.inj (begins.symm.trans beginsOwn)
        exact result
    · intro none
      cases spine with
      | root forest => exact ⟨forest, Forest.reads_of_pieces same⟩
      | nest outer opening header begins inner =>
        exact (none opening (read ▸ outer.innermostOpen begins inner)).elim
  · have first : SurplusEnd (functionMarkers text) last := by
      rw [← marks, same, List.filterMap_append]
      exact forest.surplusEnd ends _
    refine ⟨fun marker surplus => ?_, fun none => (none last first).elim, rendered⟩
    obtain rfl := first.unique surplus
    exact Blocks.value_of_surplus ends same

/-- A block inside a block, with text around both and a marker of another kind. -/
def nestedForest : Forest :=
  .text (.block (.text .empty "a\n".toList)
    ⟨2, "<@func f(x)@>".toList, .functionBegin (.ofText "f(x)".toList)⟩ _ rfl
    (.text (.block (.text .empty "<@if X@>\n".toList)
      ⟨24, "<@func g@>".toList, .functionBegin (.ofText "g".toList)⟩ _ rfl (.text .empty "b\n".toList)
      ⟨36, "<@endfunc@>".toList, .functionEnd⟩ rfl) "\nc\n".toList)
    ⟨50, "<@endfunc@>".toList, .functionEnd⟩ rfl) "\nd".toList

/-- A text with a block inside a block is rendered; of two ends too many the first is named; of two
open blocks the inner one is. -/
theorem defineBlocks_eq_render_nested :
    (defineBlocks ⟨"a.slv".toList⟩
      "a\n<@func f(x)@><@if X@>\n<@func g@>b\n<@endfunc@>\nc\n<@endfunc@>\nd".toList).run.value =
        .ok "a\n#define f(x) \\\n<@if X@> \\\n#define g \\ \\\nb \\\nc\nd".toList ∧
    (defineBlocks ⟨"a.slv".toList⟩ "<@func f@><@endfunc@>a<@endfunc@><@endfunc@>".toList).run.value =
      .error (.unbalancedEnd ⟨"a.slv".toList⟩ 22
        (Excerpt.around "<@func f@><@endfunc@>a<@endfunc@><@endfunc@>".toList 22)) ∧
    (defineBlocks ⟨"a.slv".toList⟩ "<@func f@><@func g@>a<@func h@><@endfunc@>".toList).run.value =
      .error (.unterminatedFunction ⟨"a.slv".toList⟩ "g".toList 10) := by
  refine ⟨?nested, ?surplus, ?unterminated⟩
  case nested =>
    have reads : nestedForest.Reads
        "a\n<@func f(x)@><@if X@>\n<@func g@>b\n<@endfunc@>\nc\n<@endfunc@>\nd".toList := by
      refine ⟨by decide +kernel, by cbv, ?_⟩
      repeat' constructor
    exact ((defineBlocks_eq_render _ _).2.2 nestedForest reads).trans (by decide +kernel)
  case surplus =>
    let block : Forest := .block .empty
      ⟨0, "<@func f@>".toList, .functionBegin (.ofText "f".toList)⟩ _ rfl .empty
      ⟨10, "<@endfunc@>".toList, .functionEnd⟩ rfl
    have marks : functionMarkers "<@func f@><@endfunc@>a<@endfunc@><@endfunc@>".toList =
        block.markers ++ ⟨22, "<@endfunc@>".toList, .functionEnd⟩ ::
          [⟨33, "<@endfunc@>".toList, .functionEnd⟩] := by cbv
    have surplus : SurplusEnd (block.markers ++ ⟨22, "<@endfunc@>".toList, .functionEnd⟩ ::
        [⟨33, "<@endfunc@>".toList, .functionEnd⟩]) ⟨22, "<@endfunc@>".toList, .functionEnd⟩ :=
      block.surplusEnd rfl _
    rw [← marks] at surplus
    exact (defineBlocks_eq_render _ _).1 _ surplus
  case unterminated =>
    let first : Spine := .nest (.root .empty)
      ⟨0, "<@func f@>".toList, .functionBegin (.ofText "f".toList)⟩ _ rfl .empty
    let block : Forest := .block (.text .empty "a".toList)
      ⟨21, "<@func h@>".toList, .functionBegin (.ofText "h".toList)⟩ _ rfl .empty
      ⟨31, "<@endfunc@>".toList, .functionEnd⟩ rfl
    let spine : Spine := .nest first
      ⟨10, "<@func g@>".toList, .functionBegin (.ofText "g".toList)⟩ _ rfl block
    have marks : functionMarkers "<@func f@><@func g@>a<@func h@><@endfunc@>".toList =
        spine.markers := by cbv
    have outcome := defineBlocks_eq_render ⟨"a.slv".toList⟩
      "<@func f@><@func g@>a<@func h@><@endfunc@>".toList
    rw [marks] at outcome
    exact (outcome.2.1 fun _ => spine.steady_markers.not_surplusEnd).1 _ _
      (first.innermostOpen rfl block) rfl

end ShaderBuild
