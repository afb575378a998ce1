import ShaderBuild.Proofs.Dependency.Closure
import ShaderBuild.Proofs.Expansion.Agreement
import ShaderBuild.Proofs.Expansion.Balance
import ShaderBuild.Proofs.Expansion.Strays
/-!
Which texts an expansion refuses for an opener that is left over: those with a marker that says
nothing known, or with an opener that has no closer, in a function block or outside.
-/
namespace ShaderBuild

/-- A marker of the text says nothing that is known, or an opener has no closer. -/
def Malformed (text : Text) : Prop :=
  (∃ marker ∈ markers text, ∃ body, marker.directive = .unknown body) ∨
    ∃ offset, .stray offset ∈ scan text

namespace Mark

variable {marks out : List Mark} {kind : Char} {body : Text}

private theorem head_of_opening {rest : List Mark} (opening : Opening (flat rest).head?) :
    ∃ kind later, (kind = '@' ∨ kind = '!') ∧ rest = .char kind :: later := by
  obtain ⟨kind, isKind, first⟩ := opening_iff.mp opening
  obtain ⟨later, rfl⟩ := char_of_head? first (by rcases isKind with rfl | rfl <;> decide)
  exact ⟨kind, later, isKind, rfl⟩

private theorem stray_mem_pieces (offset : Nat) (marks : List Mark) :
    (∃ place, .stray place ∈ pieces offset marks) ↔ ¬Plain marks := by
  induction marks generalizing offset with
  | nil => simp [pieces, Plain]
  | cons mark rest ih =>
    cases mark with
    | char c =>
      have opens : (Scan.opener? (c :: flat rest)).isSome = true ↔
          c = '<' ∧ Opening (flat rest).head? := by
        rw [← not_iff_not, Bool.not_eq_true, Option.isSome_eq_false_iff, Option.isNone_iff_eq_none]
        exact Scan.opener?_cons_eq_none_iff
      rw [pieces, Plain, not_and_or, ← ih (offset + c.utf8Size), Classical.not_imp, not_not, ← opens]
      by_cases opened : (Scan.opener? (c :: flat rest)).isSome = true <;> simp [opened]
    | marker kind body =>
      rw [pieces, Plain, ← ih (offset + Text.byteLength (text (.marker kind body)))]
      simp

private theorem marker_mem_pieces (offset : Nat) (marks : List Mark) :
    (∃ marker ∈ (pieces offset marks).filterMap Piece.marker?,
        ∃ body, marker.directive = .unknown body) ↔
      ∃ kind body rest, .marker kind body ∈ marks ∧ Scan.directive kind body = .unknown rest := by
  induction marks generalizing offset with
  | nil => simp [pieces]
  | cons mark rest ih =>
    cases mark with
    | char c =>
      have later := ih (offset + c.utf8Size)
      rw [pieces]
      split <;> simpa [Piece.marker?] using later
    | marker kind body =>
      have later := ih (offset + Text.byteLength (text (.marker kind body)))
      rw [pieces, List.filterMap_cons]
      simp only [Piece.marker?, List.mem_cons, Mark.marker.injEq]
      constructor
      · rintro ⟨marker, rfl | member, other, unknown⟩
        · exact ⟨kind, body, other, .inl ⟨rfl, rfl⟩, unknown⟩
        · obtain ⟨own, inside, other, listed, unknown⟩ := later.mp ⟨marker, member, other, unknown⟩
          exact ⟨own, inside, other, .inr listed, unknown⟩
      · rintro ⟨own, inside, other, ⟨rfl, rfl⟩ | listed, unknown⟩
        · exact ⟨_, .inl rfl, other, unknown⟩
        · obtain ⟨marker, member, other, unknown⟩ := later.mpr ⟨own, inside, other, listed, unknown⟩
          exact ⟨marker, .inr member, other, unknown⟩

theorem malformed_flat (legible : Legible marks) : Malformed (flat marks) ↔
    (∃ kind body rest, .marker kind body ∈ marks ∧ Scan.directive kind body = .unknown rest) ∨
      ¬Plain marks := by
  rw [Malformed, markers, scan_flat legible, marker_mem_pieces, stray_mem_pieces]

namespace Plain

theorem of_append {front rest : List Mark} (plain : Plain (front ++ rest)) :
    Plain front ∧ Plain rest := by
  induction front with
  | nil => exact ⟨trivial, plain⟩
  | cons mark front ih =>
    cases mark with
    | char c =>
      obtain ⟨inside, later⟩ := ih plain.2
      refine ⟨⟨fun angle opening => plain.1 angle ?_, inside⟩, later⟩
      obtain ⟨kind, behind, isKind, rfl⟩ := head_of_opening opening
      exact opening
    | marker kind body => exact ih plain

theorem tail {mark : Mark} {rest : List Mark} (plain : Plain (mark :: rest)) : Plain rest :=
  (show Plain ([mark] ++ rest) from plain).of_append.2

theorem append_marker {front rest : List Mark} (plain : Plain front) (later : Plain rest) :
    Plain (front ++ .marker kind body :: rest) := by
  induction front with
  | nil => exact later
  | cons mark front ih =>
    cases mark with
    | char c =>
      refine ⟨fun angle opening => plain.1 angle ?_, ih plain.2⟩
      cases front with
      | nil => simp [Opening] at opening
      | cons next front => cases next <;> exact opening
    | marker own inside => exact ih plain

theorem of_continued (plain : Plain (continued marks)) : Plain marks := by
  induction marks with
  | nil => trivial
  | cons mark rest ih =>
    cases mark with
    | marker kind body => exact ih plain
    | char c =>
      refine ⟨?_, ih plain.of_append.2⟩
      rintro rfl opening
      obtain ⟨kind, later, isKind, rfl⟩ := head_of_opening opening
      have kept {c : Char} (inner : c ≠ '\n' ∧ c ≠ '\r') (rest : List Mark) :
          continued (.char c :: rest) = .char c :: continued rest := by
        rw [continued, Text.continueChar, if_neg inner.1, if_neg fun same => inner.2 same.1]
        rfl
      have inner : kind ≠ '\n' ∧ kind ≠ '\r' := by rcases isKind with rfl | rfl <;> decide
      rw [kept (by decide), kept inner] at plain
      exact plain.1 rfl opening

end Plain

/-- Rendering blocks takes no opener away. -/
theorem Rendered.plain (rendered : Rendered marks out) (plain : Plain out) : Plain marks := by
  induction rendered with
  | nil => trivial
  | char c later ih =>
    refine ⟨fun angle opening => ?_, ih plain.2⟩
    obtain ⟨kind, behind, isKind, rfl⟩ := head_of_opening opening
    cases later
    exact plain.1 angle opening
  | marker notBegin notEnd later ih => exact ih plain
  | block begins ends inside later ihInside ihLater =>
    unfold definition at plain
    rw [List.append_assoc] at plain
    obtain ⟨written, rest⟩ := plain.of_append.2.of_append
    exact (ihInside written.of_continued).append_marker (ihLater rest)

theorem plain_of_rewrite {replace : Directive → Option Text}
    (plain : Plain (marks.flatMap (rewrite replace))) : Plain marks := by
  induction marks with
  | nil => trivial
  | cons mark rest ih =>
    have later := ih plain.of_append.2
    cases mark with
    | marker kind body => exact later
    | char c =>
      refine ⟨fun angle opening => ?_, later⟩
      obtain ⟨kind, behind, isKind, rfl⟩ := head_of_opening opening
      exact plain.1 angle opening

theorem plain_of_leftover? (closed : leftover? (flat marks) = none) : Plain marks := by
  rw [leftover?_eq_none_iff] at closed
  induction marks with
  | nil => trivial
  | cons mark rest ih =>
    have later : Plain rest := ih ⟨
      fun met => closed.1 (met.of_isInfix ⟨mark.text, [], by simp [flat]⟩),
      fun met => closed.2 (met.of_isInfix ⟨mark.text, [], by simp [flat]⟩)⟩
    cases mark with
    | marker kind body => exact later
    | char c =>
      refine ⟨?_, later⟩
      rintro rfl (first | first)
      · exact closed.1 (Text.meet_cons.mpr (.inl ⟨rfl, first⟩))
      · exact closed.2 (Text.meet_cons.mpr (.inl ⟨rfl, first⟩))

/-- Where no opener stands among the characters, none comes about. -/
theorem Firm.apart (firm : Firm marks) (plain : Plain marks) : Apart marks := by
  induction marks with
  | nil => trivial
  | cons mark rest ih =>
    have later : Plain rest := plain.tail
    refine ⟨fun last opening => ?_, ih firm.2 later⟩
    obtain ⟨kind, isKind, shown⟩ := opening_iff.mp opening
    obtain ⟨behind, rfl, rfl, _⟩ := firm.1 last kind isKind shown
    exact plain.1 rfl (opening_iff.mpr ⟨kind, isKind, rfl⟩)

/-- The marks of a text that an expansion takes as they stand: openers keep their place, a directive
that is known holds no opener, and the name of an include does not begin like one goes on. Directives
in a block stand on one line. -/
structure Candid (marks : List Mark) : Prop where
  firm : Firm marks
  closed : ∀ kind body, .marker kind body ∈ marks → Scan.directive kind body ≠ .comment →
    (∀ rest, Scan.directive kind body ≠ .unknown rest) → leftover? body = none
  named : ∀ kind body name, .marker kind body ∈ marks → Scan.directive kind body = .include name →
    ¬Opening name.head?
  unbroken : Unbroken marks

namespace Candid

theorem begins (candid : Candid marks) (kind : Char) (body : Text) (header : FunctionHeader)
    (member : .marker kind body ∈ marks) (begins : Scan.directive kind body = .functionBegin header) :
    leftover? body = none :=
  candid.closed kind body member (by simp [begins]) (by simp [begins])

/-- All that is written for the markers opens nothing. -/
theorem tame (candid : Candid marks) (rendered : Rendered marks out)
    (proper : ∀ mark ∈ marks, Proper mark) : ∀ mark ∈ out, Tame settle mark := by
  intro mark member
  cases mark with
  | char c => trivial
  | marker kind body =>
    intro line written
    by_cases comment : Scan.directive kind body = .comment
    · simp only [settle, comment, if_true, Option.some.injEq] at written
      exact .inl ⟨written.symm, comment⟩
    rw [settle, if_neg comment] at written
    have other : kind ≠ '!' := fun same => comment (directive_eq_comment.mpr same)
    have native := written
    rw [directive_of_ne other] at native
    obtain ⟨listed, _⟩ := (rendered.member_iff proper candid.unbroken other).mp member
    have closed := candid.closed kind body listed comment fun rest unknown => by
      simp [unknown, Directive.native?] at written
    rw [leftover?_eq_none_iff] at closed
    refine .inr ⟨head?_native written, leftover?_eq_none_iff.mpr ⟨?_, ?_⟩, written⟩
    · exact fun met => closed.1 (Directive.meet_native (.inl ⟨rfl, .inl rfl⟩) native met)
    · exact fun met => closed.2 (Directive.meet_native (.inl ⟨rfl, .inr rfl⟩) native met)

/-- The passes before includes are followed settle the markers that blocks leave. -/
theorem settled (candid : Candid marks) (rendered : Rendered marks out)
    (proper : ∀ mark ∈ marks, Proper mark) :
    Legible (out.flatMap (rewrite settle)) ∧
      Source.settled (flat out) = flat (out.flatMap (rewrite settle)) := by
  have firm : Firm out := by
    have own : Firm (marks ++ []) := by simpa using candid.firm
    simpa using rendered.firm proper candid.begins own
  have reads {replace : Directive → Option Text}
      (less : ∀ directive line, replace directive = some line → settle directive = some line) :
      Legible (out.flatMap (rewrite replace)) :=
    firm.legible (rendered.proper proper)
      fun mark member => (candid.tame rendered proper mark member).of_settle less
  have kept : Legible out := flatMap_keep out ▸ reads (by simp)
  exact ⟨reads fun _ _ => id, Source.settled_flat kept (reads settle_comment)⟩

end Candid

private theorem meet_nativeLine {name : Text} (isKind : kind = '@' ∨ kind = '!')
    (closed : leftover? name = none) (named : ¬Opening name.head?) :
    ¬Text.Meet '<' kind ("#include <".toList ++ name ++ ">".toList) := by
  rw [Text.meet_append, Text.meet_append]
  rintro ((sign | inside | ⟨_, first⟩) | last | ⟨_, first⟩)
  · revert sign
    rcases isKind with rfl | rfl <;> decide
  · rw [leftover?_eq_none_iff] at closed
    rcases isKind with rfl | rfl
    · exact closed.1 inside
    · exact closed.2 inside
  · exact named (opening_iff.mpr ⟨kind, isKind, first⟩)
  · simp [Text.meet_cons] at last
  · obtain rfl : '>' = kind := Option.some.inj first
    rcases isKind with same | same <;> exact absurd same (by decide)

private theorem leftover?_nativeLines (plain : Plain marks)
    (includes : ∀ kind body, .marker kind body ∈ marks → ∃ name,
      Scan.directive kind body = .include name ∧ leftover? name = none ∧ ¬Opening name.head?) :
    leftover? (flat (marks.flatMap (rewrite Include.nativeLine?))) = none := by
  have none {kind : Char} (isKind : kind = '@' ∨ kind = '!') :
      ¬Text.Meet '<' kind (flat (marks.flatMap (rewrite Include.nativeLine?))) := by
    induction marks with
    | nil => simp
    | cons mark rest ih =>
      have later : Plain rest := plain.tail
      have rests := ih later fun kind body member => includes kind body (by simp [member])
      rw [List.flatMap_cons, flat_append, Text.meet_append]
      cases mark with
      | char c =>
        rintro (own | inside | ⟨last, first⟩)
        · simp [rewrite, Text.meet_cons] at own
        · exact rests inside
        · obtain rfl : c = '<' := by simpa [rewrite] using last
          refine plain.1 rfl ?_
          cases rest with
          | nil => simp at first
          | cons next rest =>
            cases next with
            | char other => exact opening_iff.mpr ⟨kind, isKind, first⟩
            | marker own body =>
              obtain ⟨name, read, _⟩ := includes own body (by simp)
              rw [List.flatMap_cons, rewrite, read] at first
              obtain rfl : '#' = kind := Option.some.inj first
              rcases isKind with same | same <;> exact absurd same (by decide)
      | marker own body =>
        obtain ⟨name, read, closed, named⟩ := includes own body (by simp)
        -- A native line ends in a bracket that opens nothing with what follows.
        have line : rewrite Include.nativeLine? (.marker own body) =
            ("#include <".toList ++ name ++ ">".toList).map .char := by rw [rewrite, read]; rfl
        rw [line, flat_map_char]
        rintro (own | inside | ⟨last, _⟩)
        · exact meet_nativeLine isKind closed named own
        · exact rests inside
        · rw [List.getLast?_append] at last
          exact absurd (Option.some.inj last) (by decide)
  exact leftover?_eq_none_iff.mpr ⟨none (.inl rfl), none (.inr rfl)⟩

private theorem marker_mem_settle (member : .marker kind body ∈ marks.flatMap (rewrite settle)) :
    .marker kind body ∈ marks ∧ settle (Scan.directive kind body) = none := by
  obtain ⟨old, present, made⟩ := List.mem_flatMap.mp member
  cases old with
  | char c => simp [rewrite] at made
  | marker own inside =>
    rw [rewrite] at made
    split at made
    · simp at made
    · rename_i kept
      obtain ⟨rfl, rfl⟩ := Mark.marker.inj (List.mem_singleton.mp made)
      exact ⟨present, kept⟩

/-- An opener is left over exactly when the text is malformed. -/
theorem Candid.leftover?_iff (candid : Candid marks) (legible : Legible marks)
    (rendered : Rendered marks out) :
    leftover? (flat ((out.flatMap (rewrite settle)).flatMap (rewrite Include.nativeLine?))) = none ↔
      ¬Malformed (flat marks) := by
  have proper := legible.proper
  rw [malformed_flat legible, not_or, not_not]
  constructor
  · refine fun closed => ⟨?_, rendered.plain (plain_of_rewrite (plain_of_rewrite
      (plain_of_leftover? closed)))⟩
    rintro ⟨kind, body, rest, member, unknown⟩
    have other : kind ≠ '!' := fun same => by simp [directive_eq_comment.mpr same] at unknown
    have listed : .marker kind body ∈ out :=
      (rendered.member_iff proper candid.unbroken other).mpr
        ⟨member, by simp [unknown, Directive.isFunction]⟩
    rcases settled_or_include (rendered.proper proper) closed listed with ⟨line, settled⟩ | ⟨name, read⟩
    · simp [unknown, settle, Directive.native?] at settled
    · simp [unknown] at read
  · rintro ⟨known, plain⟩
    have apart : Apart out := by
      have own : Apart (marks ++ []) := by simpa using candid.firm.apart plain
      simpa using rendered.apart proper candid.begins own
    refine leftover?_nativeLines (apart.plain (candid.tame rendered proper)) fun kind body member => ?_
    obtain ⟨listed, kept⟩ := marker_mem_settle member
    have other : kind ≠ '!' := fun same => by simp [directive_eq_comment.mpr same, settle] at kept
    obtain ⟨present, stays⟩ := (rendered.member_iff proper candid.unbroken other).mp listed
    cases read : Scan.directive kind body with
    | «include» name =>
      have closed := candid.closed kind body present (by simp [read]) (by simp [read])
      have within := Directive.include_isInfix (directive_of_ne other ▸ read)
      rw [leftover?_eq_none_iff] at closed
      exact ⟨name, rfl, leftover?_eq_none_iff.mpr ⟨fun met => closed.1 (met.of_isInfix within),
        fun met => closed.2 (met.of_isInfix within)⟩, candid.named kind body name present read⟩
    | unknown rest => exact absurd ⟨kind, body, rest, present, read⟩ known
    | comment => exact absurd (directive_eq_comment.mp read) other
    | functionBegin | functionEnd => simp [read, Directive.isFunction] at stays
    | _ => simp [read, settle, Directive.native?] at kept

end Mark

private theorem value_headers {files : FileSystem} {headers : List Path}
    (readable : ∀ header ∈ headers, ∃ text, files.readText header = .ok text) :
    ∃ texts, ((headers.mapM Expanding.readText).run files).value = .ok texts := by
  induction headers with
  | nil => exact ⟨[], rfl⟩
  | cons header headers ih =>
    obtain ⟨⟨text, read⟩, later⟩ := List.forall_mem_cons.mp readable
    obtain ⟨texts, done⟩ := ih later
    refine ⟨text :: texts, ?_⟩
    rw [List.mapM_cons, Expanding.value_bind, Expanding.run_readText, read]
    change ((headers.mapM Expanding.readText >>= _).run files).value = _
    rw [Expanding.value_bind, done]
    rfl

private theorem checkLeftovers_eq (path : Path) (text : Text) :
    (leftover? text = none ∧ checkLeftovers path text = .ok ()) ∨
      (leftover? text ≠ none ∧ ∃ offset fragment excerpt, checkLeftovers path text =
        .error (.unconsumedDirective path offset fragment excerpt)) := by
  unfold checkLeftovers leftover?
  cases firstOpener? 0 text with
  | none => exact .inl ⟨rfl, rfl⟩
  | some found => exact .inr ⟨by simp, _, _, _, rfl⟩

namespace Source

open Mark

variable {files : FileSystem} {search : SearchPath} {source : Source} {marks : List Mark}

private theorem value_body_candid (same : source.text = flat marks) (legible : Legible marks)
    (candid : Candid marks) (balanced : Balanced source.text)
    (includes : ∀ name, Include.Sought files search source.text name →
      ∃ found own, search.resolve? files name = some found ∧ files.readText found = .ok own) :
    ∃ text included, ((source.body files search).run files).value =
        (checkLeftovers source.path text).bind (fun _ => .ok (text, included)) ∧
      (leftover? text = none ↔ ¬Malformed source.text) := by
  obtain ⟨rendered, blocks⟩ := defineBlocks_of_balanced source.path balanced
  have pass := blocks
  rw [same] at pass
  obtain ⟨out, renders, rfl⟩ := defineBlocks_flat legible pass
  obtain ⟨reads, settled⟩ := candid.settled renders legible.proper
  have names : Errand.names (Errand.ofText source.path (Source.settled (flat out))) =
      Include.namesIn source.text := by
    rw [settled, Errand.names_ofText source.path reads, asked_settle,
      renders.asked_of_unbroken legible.proper candid.unbroken, ← Errand.names_ofText source.path
      legible, Include.names_ofText, same]
  obtain ⟨included, follows⟩ := @Include.outcome_of_sought files search .empty source.text
    (Errand.ofText source.path (Source.settled (flat out))) includes fun name asked =>
      .here (names ▸ asked)
  refine ⟨_, included, ?_, same ▸ candid.leftover?_iff legible renders⟩
  rw [value_body, blocks, Except.bind]
  change (Include.outcome files search _ _).bind _ = _
  rw [follows, Except.bind, settled, replaceMarkers_flat _ reads]

/-- When function markers are balanced, the includes of the source and of the files that it leads to
are texts and so are the headers, an expansion is refused for an opener that is left over exactly
when the source has a marker that says nothing known or an opener without a closer; else it
succeeds. -/
theorem unconsumed_iff_malformed (same : source.text = flat marks) (legible : Legible marks)
    (candid : Candid marks) (balanced : Balanced source.text) {preamble : Preamble}
    (includes : ∀ name, Include.Sought files search source.text name →
      ∃ found own, search.resolve? files name = some found ∧ files.readText found = .ok own)
    (headers : ∀ header ∈ preamble.headers, ∃ text, files.readText header = .ok text) :
    ((∃ offset fragment excerpt, ((source.expand files search preamble).run files).value =
        .error (.unconsumedDirective source.path offset fragment excerpt)) ↔
      Malformed source.text) ∧
    ((∃ expanded, ((source.expand files search preamble).run files).value = .ok expanded) ↔
      ¬Malformed source.text) := by
  obtain ⟨text, included, body, checks⟩ := value_body_candid same legible candid balanced includes
  obtain ⟨texts, read⟩ := value_headers headers
  rw [value_expand, body, read]
  obtain ⟨closed, passed⟩ | ⟨opened, offset, fragment, excerpt, failed⟩ :=
    checkLeftovers_eq source.path text
  · have sound := checks.mp closed
    rw [passed]
    refine ⟨⟨fun refused => ?_, fun bad => absurd bad sound⟩, ⟨fun _ => sound, fun _ => ⟨_, rfl⟩⟩⟩
    obtain ⟨_, _, _, error⟩ := refused
    cases error
  · have bad : Malformed source.text := by
      by_contra sound
      exact opened (checks.mpr sound)
    rw [failed]
    refine ⟨⟨fun _ => bad, fun _ => ⟨offset, fragment, excerpt, rfl⟩⟩,
      ⟨fun done => ?_, fun sound => absurd bad sound⟩⟩
    obtain ⟨_, done⟩ := done
    cases done

/-- A block with a comment, a conditional and an include, then the end of a conditional on two lines
and an opener without a closer. -/
def openEnded : List Mark :=
  [.marker '@' "func f()".toList, .char '\n', .marker '!' " c ".toList, .marker '@' "if A".toList,
    .marker '@' "include b".toList, .marker '@' "endfunc".toList, .marker '@' "endif\n".toList,
    .char '<', .char '@', .char '\n']

private theorem legible_openEnded : Legible openEnded := by
  have stray (kind : Char) (after : Text)
      (opens : Scan.opener? ('<' :: flat [.char '@', .char '\n']) = some (kind, after)) :
      Scan.closing? kind after = none := by
    cases opens
    decide
  exact ⟨.inl rfl, by decide, by simp [Scan.opener?], .inr rfl, by decide, .inl rfl, by decide,
    .inl rfl, by decide, .inl rfl, by decide, .inl rfl, by decide, stray, by simp [Scan.opener?],
    by simp [Scan.opener?], trivial⟩

private theorem firm_openEnded : Firm openEnded := by
  have other {mark : Mark} {rest : List Mark} (ends : mark.ending? ≠ some '<') (firm : Firm rest) :
      Firm (mark :: rest) := ⟨fun same => absurd same ends, firm⟩
  have stray : Firm [.char '<', .char '@', .char '\n'] := by
    refine ⟨fun _ kind _ shown => ?_, other (by decide) (other (by decide) trivial)⟩
    obtain rfl : '@' = kind := Option.some.inj shown
    exact ⟨_, rfl, rfl, ⟨by decide, by decide⟩, trivial⟩
  exact other (by decide +kernel) (other (by decide) (other (by decide +kernel)
    (other (by decide +kernel) (other (by decide +kernel) (other (by decide +kernel)
    (other (by decide +kernel) stray))))))

private theorem candid_openEnded : Candid openEnded := by
  have closed : ∀ one ∈ found openEnded, Scan.directive one.1 one.2 ≠ .comment →
      leftover? one.2 = none := by decide +kernel
  have named : ∀ name ∈ asked openEnded, ¬Opening name.head? := by decide +kernel
  refine ⟨firm_openEnded, ?_, ?_, fun one member => ?_⟩
  · exact fun kind body member other _ => closed (kind, body) (mem_found.mpr member) other
  · intro kind body name member read
    refine named name (List.mem_filterMap.mpr ⟨_, member, ?_⟩)
    simp [include?, read]
  · revert one
    decide +kernel

private theorem includes_openEnded {name : Text} (sought : Include.Sought (sample (flat openEnded))
    ⟨[Path.of "/"]⟩ (flat openEnded) name) :
    ∃ found own, (⟨[Path.of "/"]⟩ : SearchPath).resolve? (sample (flat openEnded)) name = some found ∧
      (sample (flat openEnded)).readText found = .ok own := by
  have resolved : (⟨[Path.of "/"]⟩ : SearchPath).resolve? (sample (flat openEnded)) "b".toList =
      some (Path.of "/b") := by cbv
  have read : (sample (flat openEnded)).readText (Path.of "/b") = .ok [] := by cbv
  suffices same : name = "b".toList from ⟨_, _, same ▸ resolved, read⟩
  induction sought with
  | here asked =>
    have names : Include.namesIn (flat openEnded) = ["b".toList] := by cbv
    rw [names] at asked
    simpa using asked
  | there earlier found opened asked ih =>
    obtain rfl := Option.some.inj (resolved.symm.trans (ih ▸ found))
    obtain rfl := Except.ok.inj (read.symm.trans opened)
    have names : Include.namesIn [] = [] := by cbv
    simp [names] at asked

/-- A text whose only fault is an opener without a closer is refused. -/
theorem unconsumed_iff_malformed_openEnded : ∃ offset fragment excerpt,
    ((Source.expand ⟨samplePath, flat openEnded, .vertex⟩ (sample (flat openEnded)) ⟨[Path.of "/"]⟩
      ⟨[Path.of "/b"], []⟩).run (sample (flat openEnded))).value =
        .error (.unconsumedDirective samplePath offset fragment excerpt) := by
  have malformed : Malformed (flat openEnded) :=
    (malformed_flat legible_openEnded).mpr (.inr (by simp [openEnded, Plain, Opening]))
  refine (@unconsumed_iff_malformed (sample (flat openEnded)) ⟨[Path.of "/"]⟩
    ⟨samplePath, flat openEnded, .vertex⟩ openEnded rfl legible_openEnded candid_openEnded ?_
    ⟨[Path.of "/b"], []⟩ (fun _ => includes_openEnded) fun header member => ?_).1.mpr malformed
  · unfold Balanced
    decide +kernel
  · obtain rfl := List.mem_singleton.mp member
    exact ⟨[], by cbv⟩

private theorem value_expand_alone {text rendered left : Text}
    (blocks : (defineBlocks samplePath text).run.value = .ok rendered)
    (asks : Errand.ofText samplePath (settled rendered) = [])
    (leaves : (replaceMarkers Include.nativeLine? (settled rendered)).value = left) :
    ((Source.expand ⟨samplePath, text, .vertex⟩ (sample text) ⟨[Path.of "/"]⟩ ⟨[], []⟩).run
        (sample text)).value = (checkLeftovers samplePath left).bind fun _ =>
      .ok ⟨Text.joinWith ['\n'] ((⟨[], []⟩ : Preamble).sections .vertex [] ++ [left]),
        PathSet.empty.withSource (sample text) samplePath []⟩ := by
  rw [value_expand, value_body, blocks, Except.bind]
  change (Except.bind ((Include.outcome _ _ (Errand.ofText samplePath _) _).bind _) _) = _
  rw [asks, Include.outcome_nil, Except.bind]
  dsimp only
  rw [leaves]
  cases checkLeftovers samplePath left with
  | error problem => rfl
  | ok => rfl

/-- In a block the line end in a directive is continued before the directive is read: an alternative
that says nothing wrong is refused, and a condition that says nothing becomes a native line. -/
theorem unconsumed_ne_malformed_broken :
    (∃ text, text = "<@func f()@>\n<@else\n@>\n<@endfunc@>\n".toList ∧ Balanced text ∧
      Include.namesIn text = [] ∧ ¬Malformed text ∧ ∃ offset fragment excerpt,
        ((Source.expand ⟨samplePath, text, .vertex⟩ (sample text) ⟨[Path.of "/"]⟩ ⟨[], []⟩).run
          (sample text)).value = .error (.unconsumedDirective samplePath offset fragment excerpt)) ∧
    ∃ text, text = "<@func f()@>\n<@if\n@>\n<@endfunc@>\n".toList ∧ Balanced text ∧
      Include.namesIn text = [] ∧ Malformed text ∧ ∃ expanded,
        ((Source.expand ⟨samplePath, text, .vertex⟩ (sample text) ⟨[Path.of "/"]⟩ ⟨[], []⟩).run
          (sample text)).value = .ok expanded ∧ expanded.text =
            "#define GPU_VERTEX_SHADER\n#define f() \\\n \\\n#if defined(\\)\n".toList := by
  refine ⟨⟨_, rfl, ?balanced, ?names, ?known, ?refused⟩,
    ⟨_, rfl, ?balancedToo, ?namesToo, ?unknown, ?accepted⟩⟩
  case balanced | balancedToo =>
    unfold Balanced
    decide +kernel
  case names | namesToo => decide +kernel
  case known =>
    have scanned : scan "<@func f()@>\n<@else\n@>\n<@endfunc@>\n".toList =
        [.marker ⟨0, "<@func f()@>".toList, .functionBegin (.ofText "f()".toList)⟩, .char '\n',
          .marker ⟨13, "<@else\n@>".toList, .otherwise⟩, .char '\n',
          .marker ⟨23, "<@endfunc@>".toList, .functionEnd⟩, .char '\n'] := by decide +kernel
    unfold Malformed markers
    rw [scanned]
    simp [Piece.marker?]
  case refused =>
    have blocks : (defineBlocks samplePath
        "<@func f()@>\n<@else\n@>\n<@endfunc@>\n".toList).run.value =
          .ok "#define f() \\\n \\\n<@else \\\n@>\n".toList := by decide +kernel
    have expands := value_expand_alone blocks (by decide +kernel) rfl
    exact ⟨_, _, _, expands.trans (by cbv)⟩
  case unknown =>
    have broken : (⟨13, "<@if\n@>".toList, .unknown "if\n".toList⟩ : Marker) ∈
        markers "<@func f()@>\n<@if\n@>\n<@endfunc@>\n".toList := by decide +kernel
    exact .inl ⟨_, broken, _, rfl⟩
  case accepted =>
    have blocks : (defineBlocks samplePath
        "<@func f()@>\n<@if\n@>\n<@endfunc@>\n".toList).run.value =
          .ok "#define f() \\\n \\\n<@if \\\n@>\n".toList := by decide +kernel
    have leaves : (replaceMarkers Include.nativeLine?
        (settled "#define f() \\\n \\\n<@if \\\n@>\n".toList)).value =
          "#define f() \\\n \\\n#if defined(\\)\n".toList := by decide +kernel
    exact ⟨_, value_expand_alone blocks (by decide +kernel) leaves, by decide +kernel⟩

end Source

end ShaderBuild
