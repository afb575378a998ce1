import ShaderBuild.Proofs.Expansion.Cursor
import ShaderBuild.Proofs.Expansion.Following
/-!
What a rewriting of markers changes. The markers are answered one after another until one answer is a
failure; without a failure each marker is replaced by its answer or stays, and so does all that stands
between the markers. Each pass answers the markers of its own kinds and no others.
-/
namespace ShaderBuild

/-! ### Answers in order -/

section
variable {ε σ : Type}

/-- From a state on, the pieces are noticed and the markers answered in order; the replies, and the state
behind the last piece. -/
inductive Visits (notice : Piece → σ → σ) (act : Marker → EStateM ε σ (Option Text)) :
    σ → List Piece → List (Option Text) → σ → Prop where
  | nil (state : σ) : Visits notice act state [] [] state
  | pass (plain : piece.marker? = none)
      (later : Visits notice act (notice piece state) rest replies last) :
      Visits notice act state (piece :: rest) replies last
  | answer (answers : act found (notice (.marker found) state) = .ok reply next)
      (later : Visits notice act next rest replies last) :
      Visits notice act state (.marker found :: rest) (reply :: replies) last

/-- The markers are answered up to one that fails. -/
inductive Fails (notice : Piece → σ → σ) (act : Marker → EStateM ε σ (Option Text)) (state : σ)
    (problem : ε) (last : σ) : List Piece → Prop where
  | stops (visits : Visits notice act state seen replies next)
      (fails : act found (notice (.marker found) next) = .error problem last) (unseen : List Piece) :
      Fails notice act state problem last (seen ++ .marker found :: unseen)

/-- Each marker with the text that stands in its place: the reply, or without one its own. -/
def filled (found : List Marker) (replies : List (Option Text)) : List (Marker × Text) :=
  List.zipWith (fun marker reply => (marker, reply.getD marker.text)) found replies

variable {notice : Piece → σ → σ} {act : Marker → EStateM ε σ (Option Text)} {pieces : List Piece}
  {replies : List (Option Text)} {state last : σ} {problem : ε} {offset : Nat} {text : Text}

/-- Replacing markers with a state that the notices and the answers change. -/
abbrev replaceFrom (notice : Piece → σ → σ) (act : Marker → EStateM ε σ (Option Text))
    (pieces : List Piece) : EStateM ε σ Text :=
  replacePieces (fun piece => modify (notice piece)) act pieces

private theorem map_ok {α β : Type} {first : EStateM ε σ α} {value : α} (next : α → β)
    (done : first state = .ok value last) : (next <$> first) state = .ok (next value) last := by
  change EStateM.map next first state = _
  rw [EStateM.map, done]

private theorem map_error {α β : Type} {first : EStateM ε σ α} (next : α → β)
    (fails : first state = .error problem last) : (next <$> first) state = .error problem last := by
  change EStateM.map next first state = _
  rw [EStateM.map, fails]

private theorem replaceFrom_plain {piece : Piece} {rest : List Piece} (plain : piece.marker? = none) :
    replaceFrom notice act (piece :: rest) state =
      ((piece.text ++ ·) <$> replaceFrom notice act rest) (notice piece state) := by
  rw [replaceFrom, replacePieces_plain plain]
  rfl

private theorem replaceFrom_answer {found : Marker} {rest : List Piece} {reply : Option Text}
    {next : σ} (answers : act found (notice (.marker found) state) = .ok reply next) :
    replaceFrom notice act (.marker found :: rest) state =
      ((reply.getD found.text ++ ·) <$> replaceFrom notice act rest) next := by
  rw [replaceFrom, replacePieces_marker]
  change EStateM.bind (act found) _ (notice (.marker found) state) = _
  rw [EStateM.bind, answers]

private theorem replaceFrom_fails {found : Marker} {rest : List Piece}
    (fails : act found (notice (.marker found) state) = .error problem last) :
    replaceFrom notice act (.marker found :: rest) state = .error problem last := by
  rw [replaceFrom, replacePieces_marker]
  change EStateM.bind (act found) _ (notice (.marker found) state) = _
  rw [EStateM.bind, fails]

/-- Where every marker is answered, the text is put together from what stands between the markers and,
for each marker, the reply or the marker itself. -/
theorem exists_rewritten_of_visits (tiles : Tiles offset pieces text)
    (visits : Visits notice act state pieces replies last) :
    ∃ written, replaceFrom notice act pieces state = .ok written last ∧
      Rewritten offset (filled (pieces.filterMap Piece.marker?) replies) text written := by
  induction visits generalizing offset text with
  | nil state =>
    cases tiles
    exact ⟨[], rfl, .rest _ _⟩
  | @pass piece state rest replies last plain later ih =>
    cases tiles with
    | cons placed tiles =>
      obtain ⟨written, done, rewritten⟩ := ih tiles
      refine ⟨piece.text ++ written, ?_, ?_⟩
      · rw [replaceFrom_plain plain, map_ok _ done]
      · rw [List.filterMap_cons, plain]
        exact rewritten.front piece.text
  | @answer found state reply next rest replies last answers later ih =>
    cases tiles with
    | cons placed tiles =>
      obtain ⟨written, done, rewritten⟩ := ih tiles
      refine ⟨reply.getD found.text ++ written, ?_, ?_⟩
      · rw [replaceFrom_answer answers, map_ok _ done]
      · rw [← placed found rfl] at rewritten ⊢
        exact @Rewritten.put _ [] _ _ _ _ _ rfl rewritten

theorem replaceFrom_of_fails (fails : Fails notice act state problem last pieces) :
    replaceFrom notice act pieces state = .error problem last := by
  obtain ⟨visits, fails, unseen⟩ := fails
  induction visits with
  | nil state => exact replaceFrom_fails fails
  | pass plain later ih =>
    rw [List.cons_append, replaceFrom_plain plain]
    exact map_error _ (ih fails)
  | answer answers later ih =>
    rw [List.cons_append, replaceFrom_answer answers]
    exact map_error _ (ih fails)

/-- The markers are all answered, or there is a first one whose answer fails. -/
theorem visits_or_fails (notice : Piece → σ → σ) (act : Marker → EStateM ε σ (Option Text))
    (pieces : List Piece) (state : σ) :
    (∃ replies last, Visits notice act state pieces replies last) ∨
      ∃ problem last, Fails notice act state problem last pieces := by
  induction pieces generalizing state with
  | nil => exact .inl ⟨[], state, .nil state⟩
  | cons piece rest ih =>
    cases kind : piece.marker? with
    | none =>
      rcases ih (notice piece state) with ⟨replies, last, visits⟩ | ⟨problem, last, fails⟩
      · exact .inl ⟨replies, last, .pass kind visits⟩
      · obtain ⟨visits, fails, unseen⟩ := fails
        exact .inr ⟨problem, last, .stops (.pass kind visits) fails unseen⟩
    | some found =>
      obtain rfl : piece = .marker found := eq_marker kind
      cases answers : act found (notice (.marker found) state) with
      | error problem last => exact .inr ⟨problem, last, .stops (.nil _) answers rest⟩
      | ok reply next =>
        rcases ih next with ⟨replies, last, visits⟩ | ⟨problem, last, fails⟩
        · exact .inl ⟨reply :: replies, last, .answer answers visits⟩
        · obtain ⟨visits, fails, unseen⟩ := fails
          exact .inr ⟨problem, last, .stops (.answer answers visits) fails unseen⟩

end

/-! ### The passes -/

namespace Directive

def isComment : Directive → Bool
  | .comment => true
  | _ => false

/-- Conditionals and plain definitions. -/
def isConditional : Directive → Bool
  | .whenever _ | .otherwiseWhen _ | .otherwise | .endWhen | .define _ => true
  | _ => false

def isInclude : Directive → Bool
  | .include _ => true
  | _ => false

end Directive

/-- In the place of each marker of a kind stands a line, and all else is as it was. -/
structure Confined (kind : Directive → Bool) (line : Directive → Text) (text written : Text) :
    Prop where
  replaced : Rewritten 0 (((markers text).filter fun marker => kind marker.directive).map
    fun marker => (marker, line marker.directive)) text written
  unchanged : (∀ marker ∈ markers text, kind marker.directive = false) → written = text

private theorem put_eq {kind : Directive → Bool} {replace : Directive → Option Text}
    (of : ∀ directive, (replace directive).isSome = kind directive) (found : List Marker) :
    Mark.put replace found = (found.filter fun marker => kind marker.directive).map
      fun marker => (marker, (replace marker.directive).getD []) := by
  induction found with
  | nil => rfl
  | cons marker rest ih =>
    have own := of marker.directive
    rw [Mark.put, List.filterMap_cons, List.filter_cons, ← own]
    cases replaced : replace marker.directive with
    | none => exact ih
    | some line =>
      rw [Option.isSome_some, if_pos rfl, List.map_cons, replaced, ← ih]
      rfl

theorem confined_replaceMarkers {kind : Directive → Bool} {replace : Directive → Option Text}
    (of : ∀ directive, (replace directive).isSome = kind directive) (text : Text) :
    Confined kind (fun directive => (replace directive).getD []) text
      (replaceMarkers replace text).value := by
  have replaced := rewritten_replaceMarkers replace text
  rw [put_eq of] at replaced
  refine ⟨replaced, fun none => ?_⟩
  rw [List.filter_eq_nil_iff.mpr fun marker member => by simp [none marker member]] at replaced
  exact replaced.unique (.rest 0 text)

theorem confined_dropComments (text : Text) :
    Confined Directive.isComment (fun _ => []) text (dropComments text).value := by
  have confined := @confined_replaceMarkers Directive.isComment
    (fun directive => if directive = .comment then some [] else none)
    (fun directive => by cases directive <;> rfl) text
  have same : (fun directive => ((if directive = Directive.comment then some [] else none).getD [] :
      Text)) = fun _ => [] := by
    funext directive
    split <;> rfl
  rwa [same] at confined

theorem confined_nativeConditionals (text : Text) :
    Confined Directive.isConditional (fun directive => directive.native?.getD []) text
      (nativeConditionals text).value :=
  confined_replaceMarkers (fun directive => by cases directive <;> rfl) text

namespace Include

variable {files : FileSystem} {search : SearchPath} {path : Path}

/-- The answer to a marker of the file at `path`: an include is followed, with the files that were found
before, and stands as its native line. -/
def reply (files : FileSystem) (search : SearchPath) (path : Path) (found : Marker) :
    StateT PathSet Expanding (Option Text) :=
  match found.directive with
  | .include name => do
    let included ← follow files search [.fetch path name] (← get)
    set included
    pure (nativeLine? (.include name))
  | _ => pure none

/-- Notes an opener without a closer. -/
def notice (piece : Piece) : StateT PathSet Expanding Unit :=
  liftM piece.notice

/-- The pieces with native lines for their includes. -/
private def lines (pieces : List Piece) : Text :=
  (replacePieces Piece.notice (fun found => pure (nativeLine? found.directive)) pieces :
    Logged Text).value

private theorem lines_plain {piece : Piece} (rest : List Piece) (plain : piece.marker? = none) :
    lines (piece :: rest) = piece.text ++ lines rest := by
  rw [lines, replacePieces_plain plain]
  rfl

private theorem lines_marker (found : Marker) (rest : List Piece) :
    lines (.marker found :: rest) =
      (nativeLine? found.directive).getD found.text ++ lines rest := by
  rw [lines, replacePieces_marker]
  rfl

private theorem run_reply_kept {found : Marker} (set : PathSet)
    (other : Errand.ofPiece? path (.marker found) = none) :
    (reply files search path found).run set = pure (nativeLine? found.directive, set) := by
  unfold reply
  cases read : found.directive <;> simp_all [Errand.ofPiece?, nativeLine?]

private theorem run_reply_fetch {found : Marker} {errand : Errand} (set : PathSet)
    (own : Errand.ofPiece? path (.marker found) = some errand) :
    (reply files search path found).run set =
      follow files search [errand] set >>= fun included =>
        pure (nativeLine? found.directive, included) := by
  unfold Errand.ofPiece? at own
  dsimp only at own
  split at own
  · rename_i name read
    obtain rfl := Option.some.inj own
    simp [reply, read]
  · cases own

/-- Answering the markers follows the includes in order, and writes the lines. -/
theorem replacePieces_reply (pieces : List Piece) (set : PathSet) :
    (replacePieces notice (reply files search path) pieces).run set =
      follow files search (pieces.filterMap (Errand.ofPiece? path)) set >>= fun included =>
        pure (lines pieces, included) := by
  induction pieces generalizing set with
  | nil =>
    rw [List.filterMap_nil, follow, pure_bind]
    rfl
  | cons piece rest ih =>
    cases piece with
    | char c =>
      have quiet : notice (.char c) = pure () := rfl
      rw [replacePieces_plain rfl, lines_plain rest rfl, quiet, pure_bind, StateT.run_map, ih,
        List.filterMap_cons_none rfl]
      simp
    | stray offset =>
      have noted : (notice (.stray offset)).run set =
          liftM (Scan.noteStray offset) >>= fun _ => pure ((), set) := rfl
      rw [replacePieces_plain rfl, lines_plain rest rfl, StateT.run_bind, noted, bind_assoc]
      have errands : (Piece.stray offset :: rest).filterMap (Errand.ofPiece? path) =
          .note offset :: rest.filterMap (Errand.ofPiece? path) := rfl
      rw [errands, follow, bind_assoc]
      apply bind_congr
      intro _
      simp [ih]
    | marker found =>
      have quiet : notice (.marker found) = pure () := rfl
      rw [replacePieces_marker, lines_marker, quiet, pure_bind, StateT.run_bind]
      cases own : Errand.ofPiece? path (.marker found) with
      | none =>
        rw [run_reply_kept set own, pure_bind, List.filterMap_cons_none own]
        simp [ih]
      | some errand =>
        have parts := @follow_append files search [errand]
          (rest.filterMap (Errand.ofPiece? path)) set
        rw [List.singleton_append] at parts
        rw [run_reply_fetch set own, List.filterMap_cons_some own, parts, bind_assoc, bind_assoc]
        apply bind_congr
        intro included
        simp [ih]

theorem nativeIncludes_eq_replacePieces (text : Text) :
    nativeIncludes files search path text =
      (replacePieces notice (reply files search path) (scan text)).run .empty :=
  (replacePieces_reply (scan text) .empty).symm

theorem value_nativeIncludes (text : Text) :
    ((nativeIncludes files search path text).run files).value =
      (outcome files search (Errand.ofText path text) .empty).bind fun included =>
        .ok ((replaceMarkers nativeLine? text).value, included) :=
  Expanding.value_bind files _ _

theorem confined_nativeLine (text : Text) :
    Confined Directive.isInclude (fun directive => (nativeLine? directive).getD []) text
      (replaceMarkers nativeLine? text).value :=
  confined_replaceMarkers (fun directive => by cases directive <;> rfl) text

theorem names_ofText_eq_nil {text : Text}
    (none : ∀ marker ∈ markers text, marker.directive.isInclude = false) :
    Errand.names (Errand.ofText path text) = [] := by
  apply List.filterMap_eq_nil_iff.mpr
  intro errand asked
  obtain ⟨piece, member, own⟩ := List.mem_filterMap.mp asked
  cases piece with
  | char c => cases own
  | stray offset =>
    obtain rfl := Option.some.inj own
    rfl
  | marker found =>
    have other := none found (mem_markers member)
    unfold Errand.ofPiece? at own
    dsimp only at own
    split at own
    · rename_i name read
      rw [read] at other
      cases other
    · cases own

end Include

/-! ### What is replaced -/

/-- The replacement of the markers of a text. When every marker is answered the text is put together, in
order, from what stands between the markers and from the reply to each marker, or the marker as it is
where there is none. At the first answer that fails, the failure is the result and the state is that in
which the answer leaves it. One or the other happens. -/
structure Replaces {ε σ : Type} (notice : Piece → σ → σ) (act : Marker → EStateM ε σ (Option Text))
    (text : Text) : Prop where
  answered : ∀ state replies last, Visits notice act state (scan text) replies last →
    ∃ written, replaceFrom notice act (scan text) state = .ok written last ∧
      Rewritten 0 (filled (markers text) replies) text written
  refused : ∀ state problem last, Fails notice act state problem last (scan text) →
    replaceFrom notice act (scan text) state = .error problem last
  decided : ∀ state, (∃ replies last, Visits notice act state (scan text) replies last) ∨
    ∃ problem last, Fails notice act state problem last (scan text)

/-- With a cursor and slices a text is rewritten as piece by piece, whatever the markers are answered: no
slice is missing. Markers that are answered are replaced, in order, up to the first answer that fails, and
all else is kept. Each pass is such a replacement of the markers of its own kinds alone, and a text
without them stays as it is. -/
theorem only_answered_replaced (text : Text) :
    (∀ {m : Type → Type} [Monad m] [LawfulMonad m] (notice : Piece → m Unit)
        (act : Marker → m (Option Text)),
      Cursor.rewrite notice act text = OptionT.lift (replacePieces notice act (scan text))) ∧
    (∀ {ε σ : Type} (notice : Piece → σ → σ) (act : Marker → EStateM ε σ (Option Text)),
      Replaces notice act text) ∧
    Confined Directive.isComment (fun _ => []) text (dropComments text).value ∧
    Confined Directive.isConditional (fun directive => directive.native?.getD []) text
      (nativeConditionals text).value ∧
    ∀ files search path,
      nativeIncludes files search path text =
        (replacePieces Include.notice (Include.reply files search path) (scan text)).run .empty ∧
      (∀ written included,
        ((nativeIncludes files search path text).run files).value = .ok (written, included) →
          Confined Directive.isInclude (fun directive => (Include.nativeLine? directive).getD []) text
            written) ∧
      ((∀ marker ∈ markers text, marker.directive.isInclude = false) →
        ((nativeIncludes files search path text).run files).value = .ok (text, .empty)) := by
  refine ⟨fun notice act => Cursor.rewrite_eq_replacePieces text, fun notice act => ?_,
    confined_dropComments text, confined_nativeConditionals text, fun files search path => ?_⟩
  · constructor
    · intro state replies last visits
      exact exists_rewritten_of_visits (tiles_scan text) visits
    · intro state problem last fails
      exact replaceFrom_of_fails fails
    · exact visits_or_fails notice act (scan text)
  · refine ⟨Include.nativeIncludes_eq_replacePieces text, ?_, ?_⟩
    · intro written included done
      rw [Include.value_nativeIncludes] at done
      obtain ⟨_, -, same⟩ := bind_eq_ok.mp done
      obtain ⟨rfl, rfl⟩ := Prod.mk.inj (Except.ok.inj same)
      exact Include.confined_nativeLine text
    · intro none
      rw [Include.value_nativeIncludes,
        Include.outcome_of_names_nil (Include.names_ofText_eq_nil none), Except.bind,
        (Include.confined_nativeLine text).unchanged none]

/-- Counts the markers and replaces every other one; on one of no known form it fails. -/
def alternating (found : Marker) : EStateM Nat Nat (Option Text) := fun count =>
  match found.directive with
  | .unknown _ => .error found.start (count + 1)
  | _ => .ok (if count % 2 = 0 then none else some ['*']) (count + 1)

/-- Of three markers the one in the middle is replaced, and the first stays as a part of the longer gap in
front of it. With a failure in the middle the last one is not visited: it would be counted. -/
theorem only_answered_replaced_alternating :
    replaceFrom (fun _ count => count) alternating (scan "é<@else@>b<! c !>d<@if A@>".toList) 0 =
      .ok "é<@else@>b*d<@if A@>".toList 3 ∧
    replaceFrom (fun _ count => count) alternating (scan "é<@else@><@x@><! c !>".toList) 0 =
      .error 10 2 := by
  constructor
  · have replaces := (only_answered_replaced "é<@else@>b<! c !>d<@if A@>".toList).2.1
      (fun _ count => count) alternating
    have pieces : scan "é<@else@>b<! c !>d<@if A@>".toList =
        [.char 'é', .marker ⟨2, "<@else@>".toList, .otherwise⟩, .char 'b',
          .marker ⟨11, "<! c !>".toList, .comment⟩, .char 'd',
          .marker ⟨19, "<@if A@>".toList, .whenever (.defined ['A'])⟩] := by decide +kernel
    have visits : Visits (fun _ count => count) alternating 0
        (scan "é<@else@>b<! c !>d<@if A@>".toList) [none, some ['*'], none] 3 := by
      rw [pieces]
      exact .pass rfl (.answer rfl (.pass rfl (.answer rfl (.pass rfl (.answer rfl (.nil 3))))))
    obtain ⟨written, done, rewritten⟩ := replaces.answered 0 _ 3 visits
    have marks : markers "é<@else@>b<! c !>d<@if A@>".toList =
        [⟨2, "<@else@>".toList, .otherwise⟩, ⟨11, "<! c !>".toList, .comment⟩,
          ⟨19, "<@if A@>".toList, .whenever (.defined ['A'])⟩] := by decide +kernel
    rw [marks] at rewritten
    have own : Rewritten 0 (filled [⟨2, "<@else@>".toList, .otherwise⟩,
          ⟨11, "<! c !>".toList, .comment⟩, ⟨19, "<@if A@>".toList, .whenever (.defined ['A'])⟩]
        [none, some ['*'], none]) "é<@else@>b<! c !>d<@if A@>".toList
        "é<@else@>b*d<@if A@>".toList :=
      @Rewritten.put _ ['é'] _ _ _ _ _ (by decide) (@Rewritten.put _ ['b'] _ _ _ _ _ (by decide)
        (@Rewritten.put _ ['d'] _ _ _ _ _ (by decide) (.rest _ [])))
    rw [done, rewritten.unique own]
  · have replaces := (only_answered_replaced "é<@else@><@x@><! c !>".toList).2.1
      (fun _ count => count) alternating
    have pieces : scan "é<@else@><@x@><! c !>".toList =
        [.char 'é', .marker ⟨2, "<@else@>".toList, .otherwise⟩] ++
          .marker ⟨10, "<@x@>".toList, .unknown ['x']⟩ ::
            [.marker ⟨15, "<! c !>".toList, .comment⟩] := by decide +kernel
    have first : Visits (fun _ count => count) alternating 0
        [.char 'é', .marker ⟨2, "<@else@>".toList, .otherwise⟩] [none] 1 :=
      .pass rfl (.answer rfl (.nil 1))
    apply replaces.refused
    rw [pieces]
    exact .stops first rfl _

end ShaderBuild
