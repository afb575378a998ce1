import ShaderBuild.Proofs.Expansion.Separation
/-!
Texts whose function markers are balanced. All their blocks are rendered, and the directives in a
block whose lines are not broken stay as they are.
-/
namespace ShaderBuild

/-- How many blocks are open after the markers, unless an end comes where none is. -/
def openAfter (depth : Nat) : List Marker → Option Nat
  | [] => some depth
  | marker :: rest =>
    match marker.directive with
    | .functionBegin _ => openAfter (depth + 1) rest
    | .functionEnd => if depth = 0 then none else openAfter (depth - 1) rest
    | _ => openAfter depth rest

/-- Every block that begins in the text ends in it, and every end is that of a block. -/
def Balanced (text : Text) : Prop :=
  openAfter 0 (markers text) = some 0

namespace Blocks

variable {path : Path} {whole : Text}

private theorem length_push (blocks : Blocks) (text : Text) :
    (blocks.push text).opened.length = blocks.opened.length := by
  unfold push
  split
  · rfl
  · rename_i block outer opened
    rw [opened]
    rfl

/-- As long as no end comes without a block, pieces are taken in without an error. -/
theorem feedAll_of_openAfter {pieces : List Piece} {blocks : Blocks} {depth : Nat}
    (opens : openAfter blocks.opened.length (pieces.filterMap Piece.marker?) = some depth) :
    ∃ final, feedAll path whole blocks pieces = .ok final ∧ final.opened.length = depth := by
  induction pieces generalizing blocks with
  | nil => exact ⟨blocks, rfl, Option.some.inj opens⟩
  | cons piece pieces ih =>
    have goes {next : Blocks} (fed : blocks.feed path whole piece = .ok next)
        (rest : openAfter next.opened.length (pieces.filterMap Piece.marker?) = some depth) :
        ∃ final, feedAll path whole blocks (piece :: pieces) = .ok final ∧
          final.opened.length = depth := by
      obtain ⟨final, done, same⟩ := ih rest
      refine ⟨final, ?_, same⟩
      rw [feedAll, List.foldlM_cons, fed]
      exact done
    cases piece with
    | char c => exact goes rfl (by rw [length_push]; exact opens)
    | stray offset => exact goes rfl opens
    | marker found =>
      change openAfter blocks.opened.length (found :: pieces.filterMap Piece.marker?) = _ at opens
      obtain ⟨opened, output, closed⟩ := blocks
      unfold openAfter at opens
      cases read : found.directive with
      | functionBegin header =>
        simp only [read] at opens
        exact @goes ⟨⟨header.text, found.start, []⟩ :: opened, output, closed⟩
          (by simp only [feed, read]) opens
      | functionEnd =>
        simp only [read] at opens
        -- The count excludes an end where no block is open.
        cases opened with
        | nil => simp at opens
        | cons block outer =>
          refine @goes ((⟨outer, output, closed + 1⟩ : Blocks).push
            (macroText block.header block.body.reverse)) (by simp only [feed, read]) ?_
          rw [length_push]
          exact opens
      | _ =>
        simp only [read] at opens
        exact @goes ((⟨opened, output, closed⟩ : Blocks).push found.text) (by simp only [feed, read])
          (by rw [length_push]; exact opens)

end Blocks

theorem defineBlocks_of_balanced {text : Text} (path : Path) (balanced : Balanced text) :
    ∃ rendered, (defineBlocks path text).run.value = .ok rendered := by
  obtain ⟨final, done, closed⟩ := @Blocks.feedAll_of_openAfter path text (scan text) .empty 0 balanced
  refine ⟨final.output.reverse, ?_⟩
  rw [value_defineBlocks, done]
  change final.finish path = _
  rw [Blocks.finish, List.eq_nil_of_length_eq_zero closed]

namespace Mark

variable {marks out : List Mark}

/-- The markers inside of blocks that neither begin nor end one, when so many blocks are open
before. -/
def enclosed (depth : Nat) : List Mark → List (Char × Text)
  | [] => []
  | .char _ :: rest => enclosed depth rest
  | .marker kind body :: rest =>
    match Scan.directive kind body with
    | .functionBegin _ => enclosed (depth + 1) rest
    | .functionEnd => enclosed (depth - 1) rest
    | _ => if depth = 0 then enclosed depth rest else (kind, body) :: enclosed depth rest

theorem enclosed_kept {kind : Char} {body : Text} {rest : List Mark} (depth : Nat)
    (notBegin : ∀ header, Scan.directive kind body ≠ .functionBegin header)
    (notEnd : Scan.directive kind body ≠ .functionEnd) :
    enclosed depth (.marker kind body :: rest) =
      if depth = 0 then enclosed depth rest else (kind, body) :: enclosed depth rest := by
  rw [enclosed]
  split
  · exact absurd ‹_› (notBegin _)
  · exact absurd ‹_› notEnd
  · rfl

theorem staying_kept {kind : Char} {body : Text} {rest : List Mark}
    (notBegin : ∀ header, Scan.directive kind body ≠ .functionBegin header)
    (notEnd : Scan.directive kind body ≠ .functionEnd) :
    staying (.marker kind body :: rest) = (kind, body) :: staying rest := by
  have stays : (Scan.directive kind body).isFunction = false := by
    cases same : Scan.directive kind body with
    | functionBegin header => exact absurd same (notBegin header)
    | functionEnd => exact absurd same notEnd
    | _ => rfl
  rw [staying, found_marker, List.filter_cons_of_pos (by simp [stays])]
  rfl

theorem staying_function {kind : Char} {body : Text} {rest : List Mark}
    (goes : (Scan.directive kind body).isFunction = true) :
    staying (.marker kind body :: rest) = staying rest := by
  rw [staying, found_marker, List.filter_cons_of_neg (by simp [goes])]
  rfl

theorem staying_append (first second : List Mark) :
    staying (first ++ second) = staying first ++ staying second := by
  simp [staying]

/-- Inside a block all markers are enclosed, and behind a balanced text as many blocks are open as
before it. -/
theorem Rendered.enclosed_append (rendered : Rendered marks out) (depth : Nat) (tail : List Mark) :
    enclosed depth (marks ++ tail) = enclosed depth marks ++ enclosed depth tail ∧
      (depth ≠ 0 → enclosed depth marks = staying marks) := by
  induction rendered generalizing depth tail with
  | nil => exact ⟨rfl, fun _ => rfl⟩
  | char c later ih => exact ih depth tail
  | marker notBegin notEnd later ih =>
    obtain ⟨split, inside⟩ := ih depth tail
    rw [List.cons_append, enclosed_kept depth notBegin notEnd, enclosed_kept depth notBegin notEnd,
      split, staying_kept notBegin notEnd]
    by_cases outside : depth = 0
    · simp [outside]
    · simp [outside, inside outside]
  | @block kind body header lastKind lastBody inner written rest out begins ends inside later ihInside ihLater =>
    have opens (tail : List Mark) :
        enclosed depth (.marker kind body :: tail) = enclosed (depth + 1) tail := by
      rw [enclosed, begins]
    have closes (tail : List Mark) :
        enclosed (depth + 1) (.marker lastKind lastBody :: tail) = enclosed depth tail := by
      rw [enclosed, ends]
      rfl
    have block (tail : List Mark) : enclosed depth
        (.marker kind body :: (inner ++ .marker lastKind lastBody :: tail)) =
          staying inner ++ enclosed depth tail := by
      obtain ⟨split, within⟩ := ihInside (depth + 1) (.marker lastKind lastBody :: tail)
      rw [opens, split, within (Nat.succ_ne_zero depth), closes]
    obtain ⟨split, within⟩ := ihLater depth tail
    refine ⟨?_, fun outside => ?_⟩
    · have whole := block (rest ++ tail)
      rw [split, ← List.append_assoc, ← block rest] at whole
      simpa using whole
    · rw [block, within outside, staying_function (by simp [begins, Directive.isFunction]),
        staying_append, staying_function (by simp [ends, Directive.isFunction])]

theorem enclosed_subset (depth : Nat) (marks : List Mark) : enclosed depth marks ⊆ staying marks := by
  induction marks generalizing depth with
  | nil => exact fun _ => id
  | cons mark rest ih =>
    cases mark with
    | char c => exact ih depth
    | marker kind body =>
      by_cases begins : ∃ header, Scan.directive kind body = .functionBegin header
      · obtain ⟨header, begins⟩ := begins
        rw [enclosed, begins, staying_function (by simp [begins, Directive.isFunction])]
        exact ih _
      · by_cases ends : Scan.directive kind body = .functionEnd
        · rw [enclosed, ends, staying_function (by simp [ends, Directive.isFunction])]
          exact ih _
        · have notBegin : ∀ header, Scan.directive kind body ≠ .functionBegin header :=
            fun header same => begins ⟨header, same⟩
          rw [enclosed_kept depth notBegin ends, staying_kept notBegin ends]
          split
          · exact fun one member => List.mem_cons_of_mem _ (ih depth member)
          · exact List.cons_subset_cons _ (ih depth)

/-- Of each directive inside of a block the lines are not broken. -/
def Unbroken (marks : List Mark) : Prop :=
  ∀ one ∈ enclosed 0 marks, one.1 ≠ '!' → '\n' ∉ one.2

/-- The two markers are the same, or both are comments. -/
def Alike (first last : Char × Text) : Prop :=
  first = last ∨ (first.1 = '!' ∧ last.1 = '!')

private theorem Alike.continued {first last : Char × Text} (alike : Alike first last)
    (isKind : first.1 = '@' ∨ first.1 = '!') (single : first.1 ≠ '!' → '\n' ∉ first.2) :
    Alike first (last.1, Directive.continueBody last.1 last.2) := by
  rcases alike with rfl | comments
  · by_cases comment : first.1 = '!'
    · exact .inr ⟨comment, comment⟩
    · have inner : [first.1].head? ≠ some '\n' := by rcases isKind with same | same <;> simp [same]
      refine .inl (Prod.ext rfl (Text.continueBefore_line (single comment) fun ends => ?_).symm)
      exact inner ends.2
  · exact .inr comments

private theorem found_definition (header : Text) (inner : List Mark) :
    found (definition header inner) =
      (found inner).map fun one => (one.1, Directive.continueBody one.1 one.2) := by
  unfold definition
  simp only [found_append, found_chars, List.nil_append, found_continued]

/-- Rendering blocks leaves every marker as it is, but those of functions and the texts of comments. -/
theorem Rendered.alike (rendered : Rendered marks out) (proper : ∀ mark ∈ marks, Proper mark)
    (unbroken : Unbroken marks) : List.Forall₂ Alike (staying marks) (found out) := by
  induction rendered with
  | nil => exact .nil
  | char c later ih => exact ih (fun mark member => proper mark (by simp [member])) unbroken
  | @marker kind body rest out notBegin notEnd later ih =>
    rw [staying_kept notBegin notEnd, found_marker]
    refine .cons (.inl rfl) (ih (fun mark member => proper mark (by simp [member])) ?_)
    intro one member
    refine unbroken one ?_
    rwa [enclosed_kept 0 notBegin notEnd]
  | @block kind body header lastKind lastBody inner written rest out begins ends inside later ihInside ihLater =>
    simp only [List.forall_mem_cons, List.forall_mem_append] at proper
    have whole : enclosed 0 (.marker kind body :: (inner ++ .marker lastKind lastBody :: rest)) =
        staying inner ++ enclosed 0 rest := by
      obtain ⟨split, within⟩ := inside.enclosed_append 1 (.marker lastKind lastBody :: rest)
      rw [enclosed, begins]
      dsimp only
      rw [split, within (by decide), enclosed, ends]
    unfold Unbroken at unbroken
    rw [whole, List.forall_mem_append] at unbroken
    have kinds : ∀ one ∈ staying inner,
        (one.1 = '@' ∨ one.1 = '!') ∧ (one.1 ≠ '!' → '\n' ∉ one.2) := by
      intro one member
      have listed : .marker one.1 one.2 ∈ inner := mem_found.mp (List.mem_filter.mp member).1
      exact ⟨(proper.2.1 _ listed).1, unbroken.1 one member⟩
    have within : Unbroken inner := fun one member => unbroken.1 one (enclosed_subset 0 inner member)
    have alike : List.Forall₂ Alike (staying inner) (found written) := ihInside proper.2.1 within
    have sorted : List.Forall₂ (fun first last => Alike first
        (last.1, Directive.continueBody last.1 last.2)) (staying inner) (found written) := by
      refine List.Forall₂.imp ?_ ((List.forall₂_and_left _ _).mpr ⟨kinds, alike⟩)
      rintro first last ⟨⟨isKind, single⟩, same⟩
      exact same.continued isKind single
    rw [staying_function (by simp [begins, Directive.isFunction]), staying_append,
      staying_function (by simp [ends, Directive.isFunction]), found_append, found_definition]
    exact List.rel_append (List.forall₂_map_right_iff.mpr sorted) (ihLater proper.2.2.2 unbroken.2)

theorem Rendered.member_iff (rendered : Rendered marks out) (proper : ∀ mark ∈ marks, Proper mark)
    (unbroken : Unbroken marks) {kind : Char} {body : Text} (other : kind ≠ '!') :
    .marker kind body ∈ out ↔
      .marker kind body ∈ marks ∧ (Scan.directive kind body).isFunction = false := by
  have pairs {first last : List (Char × Text)} (alike : List.Forall₂ Alike first last) :
      (kind, body) ∈ last ↔ (kind, body) ∈ first := by
    induction alike with
    | nil => exact Iff.rfl
    | @cons one next first last same rest ih =>
      rw [List.mem_cons, List.mem_cons, ih]
      rcases same with rfl | ⟨comment, commentToo⟩
      · exact Iff.rfl
      · have apart : (kind, body) ≠ one ∧ (kind, body) ≠ next :=
          ⟨fun same => other ((congrArg Prod.fst same).trans comment),
            fun same => other ((congrArg Prod.fst same).trans commentToo)⟩
        simp [apart]
  rw [← mem_found, pairs (rendered.alike proper unbroken), staying, List.mem_filter, mem_found]
  simp

theorem Rendered.asked_of_unbroken (rendered : Rendered marks out)
    (proper : ∀ mark ∈ marks, Proper mark) (unbroken : Unbroken marks) :
    Mark.asked out = Mark.asked marks := by
  have pairs {first last : List (Char × Text)} (alike : List.Forall₂ Alike first last) :
      last.filterMap named? = first.filterMap named? := by
    induction alike with
    | nil => rfl
    | @cons one next first last same rest ih =>
      have equal : named? next = named? one := by
        rcases same with rfl | ⟨comment, commentToo⟩
        · rfl
        · simp [named?, include?, directive_eq_comment.mpr comment,
            directive_eq_comment.mpr commentToo]
      rw [List.filterMap_cons, List.filterMap_cons, equal, ih]
  rw [asked_eq_found out, asked_eq_staying marks]
  exact pairs (rendered.alike proper unbroken)

end Mark

end ShaderBuild
