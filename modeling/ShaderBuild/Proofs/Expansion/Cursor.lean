import ShaderBuild.Expansion.Include
import ShaderBuild.Proofs.Expansion.Rewriting
import ShaderBuild.Proofs.Text.Slice
/-!
Replacing markers with a cursor into the text. A marker that stays is passed over and the cursor stays
where it is: what is written at the next replacement, or at the end, is a slice from the cursor on with
all that was passed over. No slice is missing, and the text is the same as when every piece is written
as it is met.
-/
namespace ShaderBuild

/-- The pieces make up the text, which starts at the offset, and each marker begins where it says. -/
inductive Tiles : Nat → List Piece → Text → Prop where
  | nil (offset : Nat) : Tiles offset [] []
  | cons (placed : ∀ found, piece = .marker found → found.start = offset)
      (later : Tiles (offset + Text.byteLength piece.text) rest text) :
      Tiles offset (piece :: rest) (piece.text ++ text)

theorem eq_marker {piece : Piece} {found : Marker} (is : piece.marker? = some found) :
    piece = .marker found := by
  cases piece with
  | marker own => exact congrArg Piece.marker (Option.some.inj is)
  | char c => cases is
  | stray offset => cases is

/-- A piece that is no marker says nothing of where it begins. -/
theorem Tiles.plain {offset : Nat} {piece : Piece} {rest : List Piece} {text : Text}
    (plain : piece.marker? = none) (later : Tiles (offset + Text.byteLength piece.text) rest text) :
    Tiles offset (piece :: rest) (piece.text ++ text) := by
  apply Tiles.cons _ later
  rintro found rfl
  cases plain

private theorem tiles_pieces (offset : Nat) (marks : List Mark) :
    Tiles offset (Mark.pieces offset marks) (Mark.flat marks) := by
  induction marks generalizing offset with
  | nil => exact .nil offset
  | cons mark rest ih =>
    cases mark with
    | char c =>
      have own : Tiles offset (.char c :: Mark.pieces (offset + c.utf8Size) rest)
          ([c] ++ Mark.flat rest) := .plain rfl (ih (offset + c.utf8Size))
      rw [Mark.pieces]
      split
      · exact Tiles.plain rfl own
      · exact own
    | marker kind body =>
      have whole : Mark.flat (.marker kind body :: rest) =
          Mark.text (.marker kind body) ++ Mark.flat rest := rfl
      rw [Mark.pieces, whole]
      refine Tiles.cons ?_ (ih (offset + Text.byteLength (Mark.text (.marker kind body))))
      rintro found ⟨⟩
      rfl

theorem tiles_scan (text : Text) : Tiles 0 (scan text) text := by
  obtain ⟨marks, rfl, legible⟩ := Mark.exists_legible text
  rw [Mark.scan_flat legible]
  exact tiles_pieces 0 marks

/-! ### The cursor -/

/-- What is written of a text, and the offset up to which it is dealt with. -/
structure Cursor where
  output : Text
  offset : Nat
  deriving DecidableEq, Repr

namespace Cursor

/-- Where a marker is replaced, what stands between the cursor and the marker is written and then the
replacement; a marker that stays leaves the cursor where it is. -/
def answer (text : Text) (cursor : Cursor) (found : Marker) : Option Text → Option Cursor
  | some line => (Text.slice? text cursor.offset found.start).map fun gap =>
    ⟨cursor.output ++ gap ++ line, found.stop⟩
  | none => some cursor

/-- Writes what stands behind the cursor. -/
def finish (text : Text) (cursor : Cursor) : Option Text :=
  (Text.slice? text cursor.offset (Text.byteLength text)).map fun gap => cursor.output ++ gap

section
variable {m : Type → Type} [Monad m]

/-- Takes in one piece. -/
def visit (notice : Piece → m Unit) (act : Marker → m (Option Text)) (text : Text) (cursor : Cursor)
    (piece : Piece) : OptionT m Cursor := do
  OptionT.lift (notice piece)
  match piece with
  | .marker found => do
    let reply ← OptionT.lift (act found)
    OptionT.mk (pure (cursor.answer text found reply))
  | _ => pure cursor

/-- Takes in the pieces of a text from a cursor on. It fails where a slice is missing. -/
def run (notice : Piece → m Unit) (act : Marker → m (Option Text)) (text : Text) (cursor : Cursor)
    (pieces : List Piece) : OptionT m Text := do
  let last ← pieces.foldlM (visit notice act text) cursor
  OptionT.mk (pure (last.finish text))

/-- The text with every marker replaced for which `act` gives a text. -/
def rewrite (notice : Piece → m Unit) (act : Marker → m (Option Text)) (text : Text) :
    OptionT m Text :=
  run notice act text ⟨[], 0⟩ (scan text)

end

/-- Of a text that begins with `done` the cursor has not written the end of that yet: with it, `written`
is what there is to write of `done`. -/
def Lags (cursor : Cursor) (done written : Text) : Prop :=
  ∃ front gap, done = front ++ gap ∧ Text.byteLength front = cursor.offset ∧
    written = cursor.output ++ gap

namespace Lags

variable {cursor : Cursor} {done written : Text}

/-- A piece that stays makes the gap longer. -/
theorem pass (lags : cursor.Lags done written) (kept : Text) :
    cursor.Lags (done ++ kept) (written ++ kept) := by
  obtain ⟨front, gap, rfl, starts, rfl⟩ := lags
  exact ⟨front, gap ++ kept, List.append_assoc _ _ _, starts, List.append_assoc _ _ _⟩

/-- At a replacement the gap is written. -/
theorem answer (lags : cursor.Lags done written) (rest : Text) (found : Marker)
    (reply : Option Text) (starts : found.start = Text.byteLength done) :
    ∃ next, cursor.answer (done ++ (found.text ++ rest)) found reply = some next ∧
      next.Lags (done ++ found.text) (written ++ reply.getD found.text) := by
  cases reply with
  | none => exact ⟨cursor, rfl, lags.pass found.text⟩
  | some line =>
    obtain ⟨front, gap, rfl, begins, rfl⟩ := lags
    have sliced : Text.slice? (front ++ gap ++ (found.text ++ rest)) cursor.offset found.start =
        some gap := by
      apply Text.slice?_eq_some.mpr
      refine ⟨front, found.text ++ rest, List.append_assoc _ _ _, begins, ?_⟩
      rw [starts, Text.byteLength_append, begins]
    refine ⟨⟨cursor.output ++ gap ++ line, found.stop⟩, ?_, front ++ gap ++ found.text, [], ?_, ?_, ?_⟩
    · rw [Cursor.answer, sliced]
      rfl
    · exact (List.append_nil _).symm
    · rw [Marker.stop, starts, Text.byteLength_append]
    · exact (List.append_nil _).symm

/-- At the end of the text the gap is written. -/
theorem finish (lags : cursor.Lags done written) : cursor.finish done = some written := by
  obtain ⟨front, gap, rfl, begins, rfl⟩ := lags
  have sliced : Text.slice? (front ++ gap) cursor.offset (Text.byteLength (front ++ gap)) =
      some gap := by
    apply Text.slice?_eq_some.mpr
    refine ⟨front, [], by rw [List.append_nil], begins, ?_⟩
    rw [Text.byteLength_append, begins]
  rw [Cursor.finish, sliced]
  rfl

end Lags

end Cursor

/-! ### Piece by piece -/

section
variable {m : Type → Type} [Monad m] [LawfulMonad m] {notice : Piece → m Unit}
  {act : Marker → m (Option Text)} {piece : Piece} {found : Marker} {rest : List Piece}

theorem replacePieces_plain (plain : piece.marker? = none) :
    replacePieces notice act (piece :: rest) =
      notice piece >>= fun _ => (piece.text ++ ·) <$> replacePieces notice act rest := by
  cases piece with
  | marker found => cases plain
  | char c => simp [replacePieces]
  | stray offset => simp [replacePieces]

theorem replacePieces_marker :
    replacePieces notice act (.marker found :: rest) =
      notice (.marker found) >>= fun _ => act found >>= fun reply =>
        (reply.getD found.text ++ ·) <$> replacePieces notice act rest := by
  simp [replacePieces]

namespace Cursor

variable {text : Text} {cursor : Cursor}

theorem run_plain (plain : piece.marker? = none) :
    run notice act text cursor (piece :: rest) =
      OptionT.lift (notice piece) >>= fun _ => run notice act text cursor rest := by
  cases piece with
  | marker found => cases plain
  | char c => simp [run, visit]
  | stray offset => simp [run, visit]

theorem run_marker :
    run notice act text cursor (.marker found :: rest) =
      OptionT.lift (notice (.marker found)) >>= fun _ => OptionT.lift (act found) >>= fun reply =>
        OptionT.mk (pure (cursor.answer text found reply)) >>= fun next =>
          run notice act text next rest := by
  simp [run, visit]

private theorem lift_bind {α β : Type} (first : m α) (next : α → m β) :
    OptionT.lift (first >>= next) = OptionT.lift first >>= fun value => OptionT.lift (next value) := by
  apply OptionT.ext
  simp

/-- With a cursor that lags behind the rest of a text is rewritten as piece by piece. -/
theorem run_eq_replacePieces {offset : Nat} {pieces : List Piece} {done behind written : Text}
    (tiles : Tiles offset pieces behind) (starts : Text.byteLength done = offset)
    (lags : cursor.Lags done written) :
    run notice act (done ++ behind) cursor pieces =
      OptionT.lift ((written ++ ·) <$> replacePieces notice act pieces) := by
  induction tiles generalizing cursor done written with
  | nil offset =>
    rw [List.append_nil, run, List.foldlM_nil, pure_bind, lags.finish, replacePieces, map_pure,
      List.append_nil, OptionT.lift, pure_bind]
  | @cons piece offset rest text placed later ih =>
    have starts' : Text.byteLength (done ++ piece.text) = offset + Text.byteLength piece.text := by
      rw [Text.byteLength_append, starts]
    cases kind : piece.marker? with
    | none =>
      rw [run_plain kind, replacePieces_plain kind, map_bind, lift_bind]
      apply bind_congr
      intro _
      rw [← List.append_assoc, ih starts' (lags.pass piece.text)]
      simp
    | some found =>
      obtain rfl : piece = .marker found := eq_marker kind
      have begins : found.start = Text.byteLength done := by rw [placed found rfl, starts]
      rw [run_marker, replacePieces_marker, map_bind, lift_bind]
      apply bind_congr
      intro _
      rw [map_bind, lift_bind]
      apply bind_congr
      intro reply
      obtain ⟨next, answers, lagsToo⟩ := lags.answer text found reply begins
      have later' := ih starts' lagsToo
      rw [List.append_assoc] at later'
      rw [Piece.text, answers]
      refine (pure_bind next _).trans (later'.trans ?_)
      simp

theorem rewrite_eq_replacePieces (text : Text) :
    rewrite notice act text = OptionT.lift (replacePieces notice act (scan text)) := by
  have start : (⟨[], 0⟩ : Cursor).Lags [] [] := ⟨[], [], rfl, rfl, rfl⟩
  have whole : run notice act ([] ++ text) ⟨[], 0⟩ (scan text) =
      OptionT.lift (([] ++ ·) <$> replacePieces notice act (scan text)) :=
    run_eq_replacePieces (tiles_scan text) rfl start
  simpa [rewrite] using whole

end Cursor

end

end ShaderBuild
