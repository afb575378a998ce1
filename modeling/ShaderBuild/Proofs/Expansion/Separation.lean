import ShaderBuild.Proofs.Expansion.Rendering
import ShaderBuild.Proofs.Expansion.Replacement
import ShaderBuild.Expansion.Include
import Mathlib.Data.List.Forall2
/-!
Texts whose markers survive an expansion: none is brought about by what is taken out or written
around it, and those that name files are the same before and after.
-/
namespace ShaderBuild

open Text (words)

/-- The directive begins or ends a function block. -/
def Directive.isFunction : Directive → Bool
  | .functionBegin _ => true
  | .functionEnd => true
  | _ => false

namespace Mark

/-- The file name that a mark asks for. -/
def include? : Mark → Option Text
  | .char _ => none
  | .marker kind body =>
    match Scan.directive kind body with
    | .include name => some name
    | _ => none

theorem include?_eq_none {kind : Char} {body : Text}
    (other : ∀ name, Scan.directive kind body ≠ .include name) :
    include? (.marker kind body) = none := by
  cases same : Scan.directive kind body <;> simp_all [include?]

/-- The file names that a text asks for, in order. -/
def asked (marks : List Mark) : List Text :=
  marks.filterMap include?

/-- The marks of a text whose markers can be replaced one after the other: no `<` comes to stand
before a character that makes an opener of it, a directive that is written out holds no opener, and
none is only the word `include`. -/
structure Separate (marks : List Mark) : Prop where
  apart : Apart marks
  closed : ∀ kind body, .marker kind body ∈ marks → Scan.directive kind body ≠ .comment →
    include? (.marker kind body) = none → leftover? body = none
  named : ∀ kind body, .marker kind body ∈ marks → words body ≠ ["include".toList]

variable {marks out inner : List Mark}

theorem Rendered.covers (rendered : Rendered marks out) (tail : List Mark) :
    Covers (marks ++ tail) (out ++ tail) := by
  induction rendered with
  | nil => exact .refl tail
  | char c later ih => exact ih.cons (.char c)
  | marker notBegin notEnd later ih => exact ih.cons (.marker _ _)
  | block begins ends inside later =>
    unfold definition
    exact Covers.of_char (c := '#') (by decide) (by decide) _ _

theorem leftover?_sign {body : Text} {header : FunctionHeader} (closed : leftover? body = none)
    (read : Directive.parse body = .functionBegin header) :
    leftover? ("#define ".toList ++ header.text ++ " \\".toList) = none := by
  rw [leftover?_eq_none_iff] at closed ⊢
  have within := Directive.functionBegin_isInfix read
  exact ⟨fun met => closed.1 ((Text.meet_between (by decide) (by decide) met).of_isInfix within),
    fun met => closed.2 ((Text.meet_between (by decide) (by decide) met).of_isInfix within)⟩

private theorem apart_definition {kind : Char} {body : Text} {header : FunctionHeader} {rest : List Mark}
    (begins : Scan.directive kind body = .functionBegin header) (closed : leftover? body = none)
    (apart : Apart (continued inner ++ rest)) : Apart (definition header.text inner ++ rest) := by
  have read : Directive.parse body = .functionBegin header := by
    unfold Scan.directive at begins
    split at begins
    · simp at begins
    · exact begins
  have sign : "#define ".toList ++ header.text ++ " \\\n".toList =
      ("#define ".toList ++ header.text ++ " \\".toList) ++ ['\n'] := by
    rw [List.append_assoc _ " \\".toList]
    rfl
  unfold definition
  rw [sign, List.map_append, List.append_assoc, List.append_assoc]
  refine Apart.chars (leftover?_sign closed read) ⟨'\\', ?_, by decide⟩ ?_
  · rw [List.getLast?_append]
    rfl
  · exact ⟨fun angle => absurd (Option.some.inj angle) (by decide), apart⟩

/-- Rendering blocks keeps marks apart. -/
theorem Rendered.apart (rendered : Rendered marks out) (proper : ∀ mark ∈ marks, Proper mark)
    (closed : ∀ kind body header, .marker kind body ∈ marks →
      Scan.directive kind body = .functionBegin header → leftover? body = none)
    {tail : List Mark} (apart : Apart (marks ++ tail)) : Apart (out ++ tail) := by
  induction rendered generalizing tail with
  | nil => exact apart
  | char c later ih =>
    rw [List.forall_mem_cons] at proper
    have rest := ih proper.2 (fun kind body header member => closed kind body header (by simp [member])) apart.2
    exact ⟨fun last opening => apart.1 last ((later.covers tail).opening opening), rest⟩
  | marker notBegin notEnd later ih =>
    rw [List.forall_mem_cons] at proper
    have rest := ih proper.2 (fun kind body header member => closed kind body header (by simp [member])) apart.2
    exact ⟨fun last opening => apart.1 last ((later.covers tail).opening opening), rest⟩
  | @block kind body header lastKind lastBody inner written rest out begins ends inside later ihInside ihLater =>
    simp only [List.forall_mem_cons, List.forall_mem_append] at proper
    have nested : Apart (inner ++ .marker lastKind lastBody :: (rest ++ tail)) := by
      simpa using apart.2
    have behind : Apart (rest ++ tail) := (Apart.of_append nested).2
    have inside' := ihInside proper.2.1
      (fun kind body header member => closed kind body header (by simp [member])) nested
    have later' := ihLater proper.2.2.2
      (fun kind body header member => closed kind body header (by simp [member])) behind
    rw [List.append_assoc]
    refine apart_definition begins (closed _ _ _ (by simp) begins) ?_
    exact Apart.continued ends (inside.proper proper.2.1) (later.covers tail) inside' later'

/-- The markers among the marks. -/
def found (marks : List Mark) : List (Char × Text) :=
  marks.filterMap fun
    | .char _ => none
    | .marker kind body => some (kind, body)

@[simp] theorem found_char (c : Char) (rest : List Mark) : found (.char c :: rest) = found rest := rfl

@[simp] theorem found_marker (kind : Char) (body : Text) (rest : List Mark) :
    found (.marker kind body :: rest) = (kind, body) :: found rest := rfl

@[simp] theorem found_append (first second : List Mark) :
    found (first ++ second) = found first ++ found second :=
  List.filterMap_append

@[simp] theorem found_chars (written : Text) : found (written.map .char) = [] := by
  induction written with
  | nil => rfl
  | cons c rest ih => exact ih

theorem mem_found {kind : Char} {body : Text} :
    (kind, body) ∈ found marks ↔ .marker kind body ∈ marks := by
  induction marks with
  | nil => simp [found]
  | cons mark rest ih => cases mark <;> simp [ih]

theorem found_continued (marks : List Mark) :
    found (continued marks) =
      (found marks).map fun one => (one.1, Directive.continueBody one.1 one.2) := by
  induction marks with
  | nil => rfl
  | cons mark rest ih => cases mark <;> simp [continued, ih]

/-- The second body is the first one with its lines continued, any number of times. -/
inductive Stems (kind : Char) (body : Text) : Text → Prop where
  | same : Stems kind body body
  | again (stems : Stems kind body later) : Stems kind body (Directive.continueBody kind later)

/-- The markers that neither begin nor end a function block. -/
def staying (marks : List Mark) : List (Char × Text) :=
  (found marks).filter fun one => !(Scan.directive one.1 one.2).isFunction

theorem Rendered.stems (rendered : Rendered marks out) :
    List.Forall₂ (fun first last => first.1 = last.1 ∧ Stems first.1 first.2 last.2)
      (staying marks) (found out) := by
  induction rendered with
  | nil => exact .nil
  | char c later ih => exact ih
  | @marker kind body rest out notBegin notEnd later ih =>
    have stays : (Scan.directive kind body).isFunction = false := by
      cases same : Scan.directive kind body with
      | functionBegin header => exact absurd same (notBegin header)
      | functionEnd => exact absurd same notEnd
      | _ => rfl
    rw [staying, found_marker, found_marker, List.filter_cons_of_pos (by simp [stays])]
    exact .cons ⟨rfl, .same⟩ ih
  | block begins ends inside later ihInside ihLater =>
    unfold definition
    simp only [staying, found_append, found_marker, found_chars, List.filter_append, List.filter_cons,
      begins, ends, List.nil_append, found_continued, Directive.isFunction, Bool.not_true,
      Bool.false_eq_true, if_false]
    refine List.rel_append (List.forall₂_map_right_iff.mpr (ihInside.imp ?_)) ihLater
    rintro first last ⟨same, stems⟩
    exact ⟨same, same ▸ stems.again⟩

namespace Stems

variable {kind : Char} {body later : Text}

theorem closed (stems : Stems kind body later) (closed : leftover? body = none) :
    leftover? later = none := by
  induction stems with
  | same => exact closed
  | again _ ih => exact leftover?_continueBody ih

theorem include_of (isKind : kind = '@' ∨ kind = '!') (stems : Stems kind body later)
    (named : words body ≠ ["include".toList]) :
    words later ≠ ["include".toList] ∧
      ∀ name, Directive.parse later = .include name → Directive.parse body = .include name := by
  induction stems with
  | same => exact ⟨named, fun _ => id⟩
  | again _ ih =>
    refine ⟨fun bare => ih.1 ?_, fun name read => ih.2 name ?_⟩
    · rwa [Directive.continueBody_of_single isKind bare (by decide)] at bare
    · exact Directive.include_of_continueBody isKind ih.1 read

theorem begins (isKind : kind = '@' ∨ kind = '!') (stems : Stems kind body later) {word : Text}
    {rest : List Text} (begun : words body = word :: rest) :
    ∃ first others, words later = first :: others ∧ (first = word ∨ first = ['\\']) := by
  induction stems with
  | same => exact ⟨word, rest, begun, .inl rfl⟩
  | again _ ih =>
    obtain ⟨first, others, begun, known⟩ := ih
    obtain ⟨next, more, begun, either⟩ := Directive.words_continueBody_cons isKind begun
    exact ⟨next, more, begun, either.elim (fun same => same ▸ known) .inr⟩

theorem ne_include (isKind : kind = '@' ∨ kind = '!') (stems : Stems kind body later) {line : Text}
    (native : (Directive.parse later).native? = some line) (name : Text) :
    Directive.parse body ≠ .include name := by
  intro read
  obtain ⟨word, rest, begun, other, joint⟩ := Directive.words_native native
  obtain ⟨first, others, same, known⟩ := stems.begins isKind (Directive.words_include read)
  rw [begun] at same
  obtain ⟨rfl, _⟩ := List.cons.inj same
  exact known.elim other joint

end Stems

/-- What becomes of a marker before includes are followed: comments vanish, and native lines are
written. -/
def settle (directive : Directive) : Option Text :=
  if directive = .comment then some [] else directive.native?

theorem settle_comment (directive : Directive) (line : Text)
    (written : (if directive = .comment then some [] else none) = some line) :
    settle directive = some line := by
  split at written
  · rename_i comment
    rw [settle, if_pos comment, ← written]
  · simp at written

theorem flatMap_keep (marks : List Mark) : marks.flatMap (rewrite fun _ => none) = marks := by
  induction marks with
  | nil => rfl
  | cons mark rest ih =>
    rw [List.flatMap_cons, ih]
    cases mark <;> rfl

theorem flatMap_settle (marks : List Mark) :
    (marks.flatMap (rewrite fun directive => if directive = .comment then some [] else none)).flatMap
      (rewrite Directive.native?) = marks.flatMap (rewrite settle) := by
  have chars (written : Text) : (written.map Mark.char).flatMap (rewrite Directive.native?) =
      written.map .char := by
    induction written with
    | nil => rfl
    | cons c rest ih => simp [ih, rewrite]
  induction marks with
  | nil => rfl
  | cons mark rest ih =>
    rw [List.flatMap_cons, List.flatMap_append, ih, List.flatMap_cons]
    congr 1
    cases mark with
    | char c => rfl
    | marker kind body =>
      by_cases comment : Scan.directive kind body = .comment
      · simp [rewrite, settle, comment]
      · simp [rewrite, settle, comment]

private theorem Rendered.origin (rendered : Rendered marks out) {kind : Char} {later : Text}
    (member : .marker kind later ∈ out) :
    ∃ body, .marker kind body ∈ marks ∧ Stems kind body later := by
  have within {first last : List (Char × Text)}
      (pairs : List.Forall₂ (fun first last => first.1 = last.1 ∧ Stems first.1 first.2 last.2)
        first last) (present : (kind, later) ∈ last) :
      ∃ body, (kind, body) ∈ first ∧ Stems kind body later := by
    induction pairs with
    | nil => simp at present
    | @cons one other first last related pairs ih =>
      rcases List.mem_cons.mp present with rfl | rest
      · obtain ⟨rfl, stems⟩ := related
        exact ⟨one.2, by simp, stems⟩
      · obtain ⟨body, member, stems⟩ := ih rest
        exact ⟨body, by simp [member], stems⟩
  obtain ⟨body, present, stems⟩ := within rendered.stems (mem_found.mpr member)
  exact ⟨body, mem_found.mp (List.mem_filter.mp present).1, stems⟩

theorem head?_native {directive : Directive} {line : Text}
    (native : directive.native? = some line) : line.head? = some '#' := by
  unfold Directive.native? at native
  split at native
  case h_6 => simp at native
  all_goals
    rw [← Option.some.inj native]
    rfl

theorem directive_of_ne {kind : Char} {body : Text} (other : kind ≠ '!') :
    Scan.directive kind body = Directive.parse body :=
  if_neg other

/-- All that is written for the markers of a separate text opens nothing. -/
theorem Rendered.tame (rendered : Rendered marks out) (proper : ∀ mark ∈ marks, Proper mark)
    (separate : Separate marks) : ∀ mark ∈ out, Tame settle mark := by
  intro mark member
  cases mark with
  | char c => trivial
  | marker kind later =>
    intro line written
    by_cases comment : Scan.directive kind later = .comment
    · simp only [settle, comment, if_true, Option.some.injEq] at written
      exact .inl ⟨written.symm, comment⟩
    rw [settle, if_neg comment] at written
    have other : kind ≠ '!' := fun same => comment (directive_eq_comment.mpr same)
    have native := written
    rw [directive_of_ne other] at native
    obtain ⟨body, present, stems⟩ := rendered.origin member
    have isKind := (proper _ present).1
    have closed : leftover? later = none := by
      refine stems.closed (separate.closed kind body present ?_ (include?_eq_none fun name => ?_))
      · exact fun same => other (directive_eq_comment.mp same)
      · rw [directive_of_ne other]
        exact stems.ne_include isKind native name
    rw [leftover?_eq_none_iff] at closed
    refine .inr ⟨head?_native written, leftover?_eq_none_iff.mpr ⟨?_, ?_⟩, written⟩
    · exact fun met => closed.1 (Directive.meet_native (.inl ⟨rfl, .inl rfl⟩) native met)
    · exact fun met => closed.2 (Directive.meet_native (.inl ⟨rfl, .inr rfl⟩) native met)

theorem Tame.of_settle {replace : Directive → Option Text} {mark : Mark}
    (less : ∀ directive line, replace directive = some line → settle directive = some line)
    (tame : Tame settle mark) : Tame replace mark := by
  cases mark with
  | char c => trivial
  | marker kind body => exact fun line written => tame line (less _ line written)

/-- At every stage of an expansion the text reads as its marks. -/
theorem Rendered.legible {replace : Directive → Option Text} (rendered : Rendered marks out)
    (proper : ∀ mark ∈ marks, Proper mark) (separate : Separate marks)
    (less : ∀ directive line, replace directive = some line → settle directive = some line) :
    Legible (out.flatMap (rewrite replace)) := by
  have apart : Apart out := by
    have own : Apart (marks ++ []) := by simpa using separate.apart
    have whole := rendered.apart proper ?_ own
    · simpa using whole
    · intro kind body header member begins
      exact separate.closed kind body member (by simp [begins]) (by simp [include?, begins])
  have tame : ∀ mark ∈ out, Tame replace mark :=
    fun mark member => (rendered.tame proper separate mark member).of_settle less
  exact (apart.plain tame).legible (proper_rewrite (rendered.proper proper))

/-- The file name that a marker asks for. -/
def named? (one : Char × Text) : Option Text :=
  include? (.marker one.1 one.2)

theorem asked_eq_found (marks : List Mark) : asked marks = (found marks).filterMap named? := by
  induction marks with
  | nil => rfl
  | cons mark rest ih =>
    cases mark with
    | char c => exact ih
    | marker kind body =>
      rw [asked, found_marker, List.filterMap_cons, List.filterMap_cons, ← ih]
      rfl

theorem asked_append (first second : List Mark) :
    asked (first ++ second) = asked first ++ asked second :=
  List.filterMap_append

theorem asked_eq_staying (marks : List Mark) : asked marks = (staying marks).filterMap named? := by
  rw [asked_eq_found, staying, List.filterMap_filter]
  congr 1
  funext one
  cases same : Scan.directive one.1 one.2 <;> simp [named?, include?, Directive.isFunction, same]

theorem asked_settle (marks : List Mark) : asked (marks.flatMap (rewrite settle)) = asked marks := by
  induction marks with
  | nil => rfl
  | cons mark rest ih =>
    have one : asked (rewrite settle mark) = asked [mark] := by
      cases mark with
      | char c => rfl
      | marker kind body =>
        cases same : Scan.directive kind body <;>
          simp [rewrite, settle, same, asked, include?, Directive.native?]
    rw [List.flatMap_cons, asked_append, one, ih, ← asked_append, List.singleton_append]

/-- Where nothing opens any more once includes are written, every marker was settled or is one. -/
theorem settled_or_include {marks : List Mark} (proper : ∀ mark ∈ marks, Proper mark)
    (closed : leftover? (flat ((marks.flatMap (rewrite settle)).flatMap
      (rewrite Include.nativeLine?))) = none) {kind : Char} {body : Text}
    (member : .marker kind body ∈ marks) :
    (∃ line, settle (Scan.directive kind body) = some line) ∨
      ∃ name, Scan.directive kind body = .include name := by
  by_contra neither
  push Not at neither
  have stays {replace : Directive → Option Text} {marks : List Mark}
      (kept : replace (Scan.directive kind body) = none) (member : .marker kind body ∈ marks) :
      .marker kind body ∈ marks.flatMap (rewrite replace) :=
    List.mem_flatMap.mpr ⟨_, member, by simp [rewrite, kept]⟩
  have first : settle (Scan.directive kind body) = none :=
    Option.eq_none_iff_forall_ne_some.mpr neither.1
  have second : Include.nativeLine? (Scan.directive kind body) = none := by
    unfold Include.nativeLine?
    split
    · exact absurd ‹_› (neither.2 _)
    · rfl
  exact not_mem_of_leftover? closed (proper _ member).1 (stays second (stays first member))

/-- Expanding a separate text keeps the names that it asks for. -/
theorem Rendered.asked (rendered : Rendered marks out) (proper : ∀ mark ∈ marks, Proper mark)
    (separate : Separate marks)
    (closed : leftover? (flat ((out.flatMap (rewrite settle)).flatMap
      (rewrite Include.nativeLine?))) = none) : Mark.asked out = Mark.asked marks := by
  -- A marker that is an include at the end was one before; one that is settled was none.
  have same {kind : Char} {body later : Text} (present : .marker kind body ∈ marks)
      (stems : Stems kind body later) (member : .marker kind later ∈ out) :
      named? (kind, body) = named? (kind, later) := by
    have isKind := (proper _ present).1
    by_cases comment : kind = '!'
    · simp [named?, include?, directive_eq_comment.mpr comment]
    have own (body : Text) : Scan.directive kind body = Directive.parse body :=
      directive_of_ne comment
    rcases settled_or_include (rendered.proper proper) closed member with ⟨line, settled⟩ | ⟨name, read⟩
    · rw [settle, if_neg fun same => comment (directive_eq_comment.mp same), own] at settled
      have before := stems.ne_include isKind settled
      cases read : Directive.parse later <;> cases first : Directive.parse body <;>
        simp_all [named?, include?, Directive.native?]
    · rw [own] at read
      have before := (stems.include_of isKind (separate.named _ _ present)).2 name read
      simp [named?, include?, own, read, before]
  have pairs {first last : List (Char × Text)}
      (related : List.Forall₂ (fun first last => first.1 = last.1 ∧ Stems first.1 first.2 last.2)
        first last) (before : ∀ one ∈ first, .marker one.1 one.2 ∈ marks)
      (after : ∀ one ∈ last, .marker one.1 one.2 ∈ out) :
      last.filterMap named? = first.filterMap named? := by
    induction related with
    | nil => rfl
    | @cons one other first last pair rest ih =>
      rw [List.forall_mem_cons] at before after
      obtain ⟨kind, body⟩ := one
      obtain ⟨_, later⟩ := other
      obtain ⟨rfl, stems⟩ := pair
      rw [List.filterMap_cons, List.filterMap_cons, same before.1 stems after.1,
        ih before.2 after.2]
  rw [asked_eq_found out, asked_eq_staying marks]
  refine pairs rendered.stems (fun one member => ?_) fun one member => mem_found.mp member
  exact mem_found.mp (List.mem_filter.mp member).1

end Mark

end ShaderBuild
