import ShaderBuild.Expansion.Function
import ShaderBuild.Proofs.Expansion.Exposure
/-!
Rendering function blocks, on the marks of a text. The blocks that are open while a text is read are
the derivations of a nested structure that are not finished yet.
-/
namespace ShaderBuild

namespace Mark

/-- The marks of the definition that stands for a block. -/
def definition (header : Text) (inner : List Mark) : List Mark :=
  ("#define ".toList ++ header ++ " \\\n".toList).map .char ++ continued inner

theorem flat_definition (header : Text) {inner : List Mark}
    (proper : ∀ mark ∈ inner, Proper mark) :
    flat (definition header inner) = macroText header (flat inner) := by
  unfold definition macroText
  rw [flat_append, flat_map_char, flat_continued proper, ← Text.joinWith_lines]
  rfl

/-- The marks of a text and those left when its function blocks are rendered, blocks inside blocks
first. -/
inductive Rendered : List Mark → List Mark → Prop where
  | nil : Rendered [] []
  | char (c : Char) (later : Rendered rest out) : Rendered (.char c :: rest) (.char c :: out)
  | marker (notBegin : ∀ header, Scan.directive kind body ≠ .functionBegin header)
      (notEnd : Scan.directive kind body ≠ .functionEnd) (later : Rendered rest out) :
      Rendered (.marker kind body :: rest) (.marker kind body :: out)
  | block {kind : Char} {body : Text} {header : FunctionHeader} {lastKind : Char} {lastBody : Text}
      {inner written rest out : List Mark}
      (begins : Scan.directive kind body = .functionBegin header)
      (ends : Scan.directive lastKind lastBody = .functionEnd) (inside : Rendered inner written)
      (later : Rendered rest out) :
      Rendered (.marker kind body :: (inner ++ .marker lastKind lastBody :: rest))
        (definition header.text written ++ out)

theorem Rendered.proper {marks out : List Mark} (rendered : Rendered marks out)
    (proper : ∀ mark ∈ marks, Proper mark) : ∀ mark ∈ out, Proper mark := by
  induction rendered with
  | nil => simp
  | char c later ih =>
    simp only [List.forall_mem_cons] at proper ⊢
    exact ⟨proper.1, ih proper.2⟩
  | marker notBegin notEnd later ih =>
    simp only [List.forall_mem_cons] at proper ⊢
    exact ⟨proper.1, ih proper.2⟩
  | block begins ends inside later ihInside ihLater =>
    simp only [List.forall_mem_cons, List.forall_mem_append] at proper
    have inner := proper_continued (ihInside proper.2.1)
    intro mark member
    unfold definition at member
    rw [List.append_assoc, List.mem_append, List.mem_append] at member
    rcases member with sign | written | after
    · obtain ⟨c, _, rfl⟩ := List.mem_map.mp sign
      trivial
    · exact inner mark written
    · exact ihLater proper.2.2.2 mark after

end Mark

namespace Blocks

open Mark

variable {path : Path} {whole : Text}

/-- Takes in the pieces of the rest of a text. -/
def feedAll (path : Path) (whole : Text) (blocks : Blocks) (pieces : List Piece) :
    Except ExpansionError Blocks :=
  pieces.foldlM (feed path whole) blocks

private theorem feedAll_char (offset : Nat) (c : Char) (rest : List Mark) (blocks : Blocks) :
    feedAll path whole blocks (pieces offset (.char c :: rest)) =
      feedAll path whole (blocks.push [c]) (pieces (offset + c.utf8Size) rest) := by
  unfold feedAll
  rw [pieces]
  split <;> rfl

private theorem feedAll_begin {kind : Char} {body : Text} {header : FunctionHeader} (offset : Nat)
    (rest : List Mark) (blocks : Blocks) (begins : Scan.directive kind body = .functionBegin header) :
    feedAll path whole blocks (pieces offset (.marker kind body :: rest)) =
      feedAll path whole { blocks with opened := ⟨header.text, offset, []⟩ :: blocks.opened }
        (pieces (offset + Text.byteLength (text (.marker kind body))) rest) := by
  unfold feedAll
  simp [pieces, List.foldlM_cons, feed, begins, Bind.bind, Except.bind]

private theorem feedAll_end {kind : Char} {body : Text} {block : OpenBlock}
    {outer : List OpenBlock} {output : Text} {closed : Nat} (offset : Nat) (rest : List Mark)
    (ends : Scan.directive kind body = .functionEnd) :
    feedAll path whole ⟨block :: outer, output, closed⟩ (pieces offset (.marker kind body :: rest)) =
      feedAll path whole
        ((⟨outer, output, closed + 1⟩ : Blocks).push (macroText block.header block.body.reverse))
        (pieces (offset + Text.byteLength (text (.marker kind body))) rest) := by
  unfold feedAll
  simp [pieces, List.foldlM_cons, feed, ends, Bind.bind, Except.bind]

private theorem feedAll_unbalanced {kind : Char} {body output : Text} {closed : Nat} (offset : Nat)
    (rest : List Mark) (ends : Scan.directive kind body = .functionEnd) (final : Blocks) :
    feedAll path whole ⟨[], output, closed⟩ (pieces offset (.marker kind body :: rest)) ≠
      .ok final := by
  unfold feedAll
  simp [pieces, List.foldlM_cons, feed, ends, Bind.bind, Except.bind]

private theorem feedAll_kept {kind : Char} {body : Text} (offset : Nat) (rest : List Mark)
    (blocks : Blocks) (notBegin : ∀ header, Scan.directive kind body ≠ .functionBegin header)
    (notEnd : Scan.directive kind body ≠ .functionEnd) :
    feedAll path whole blocks (pieces offset (.marker kind body :: rest)) =
      feedAll path whole (blocks.push (text (.marker kind body)))
        (pieces (offset + Text.byteLength (text (.marker kind body))) rest) := by
  unfold feedAll
  rw [pieces, List.foldlM_cons, feed]
  dsimp only
  split
  · exact absurd ‹_› (notBegin _)
  · exact absurd ‹_› notEnd
  · rfl

/-- How a run from some point of a text to its end follows the nested structure: outside of all
blocks it writes the rendered marks; inside a block it first comes to the end of that block. -/
structure Follows (path : Path) (whole : Text) (final blocks : Blocks) (marks : List Mark) :
    Prop where
  outside : blocks.opened = [] →
    ∃ out, Rendered marks out ∧ final.output = (flat out).reverse ++ blocks.output
  inside : ∀ block outer, blocks.opened = block :: outer →
    ∃ inner kind body rest written next closed, marks = inner ++ .marker kind body :: rest ∧
      Scan.directive kind body = .functionEnd ∧ Rendered inner written ∧
      feedAll path whole
        ((⟨outer, blocks.output, closed⟩ : Blocks).push
          (macroText block.header (block.body.reverse ++ flat written)))
        (pieces next rest) = .ok final

private theorem Follows.after {final : Blocks} {opened : List OpenBlock} {output : Text}
    {count : Nat} {marks : List Mark} (closed : Nat) (read written : List Mark)
    (follows : Follows path whole final ((⟨opened, output, count⟩ : Blocks).push (flat written)) marks)
    (renders : ∀ rest out, Rendered rest out → Rendered (read ++ rest) (written ++ out)) :
    Follows path whole final ⟨opened, output, closed⟩ (read ++ marks) := by
  constructor
  · rintro rfl
    obtain ⟨out, rendered, same⟩ := follows.outside rfl
    exact ⟨written ++ out, renders _ _ rendered, by simp [same, push]⟩
  · rintro block outer rfl
    obtain ⟨inner, kind, body, rest, wrote, next, closed, rfl, ends, rendered, run⟩ :=
      follows.inside _ _ rfl
    refine ⟨read ++ inner, kind, body, rest, written ++ wrote, next, closed, by simp, ends,
      renders _ _ rendered, ?_⟩
    simpa [push] using run

private theorem follows_of_feedAll (bound : Nat) {marks : List Mark} (short : marks.length < bound)
    (proper : ∀ mark ∈ marks, Proper mark) {offset : Nat} {blocks final : Blocks}
    (run : feedAll path whole blocks (pieces offset marks) = .ok final) (done : final.opened = []) :
    Follows path whole final blocks marks := by
  induction bound generalizing marks offset blocks with
  | zero => simp at short
  | succ bound ih =>
    obtain ⟨opened, output, closed⟩ := blocks
    cases marks with
    | nil =>
      obtain rfl := Except.ok.inj run
      refine ⟨fun _ => ⟨[], .nil, by simp⟩, fun block outer opened => ?_⟩
      rw [done] at opened
      simp at opened
    | cons mark rest =>
      have others : ∀ mark ∈ rest, Proper mark := fun mark member => proper mark (by simp [member])
      have shorter : rest.length < bound := by simpa using short
      have single (mark : Mark) : flat [mark] = text mark := by simp [flat]
      cases mark with
      | char c =>
        rw [feedAll_char] at run
        exact Follows.after closed [.char c] [.char c] (ih shorter others run) fun _ _ => .char c
      | marker kind body =>
        by_cases begins : ∃ header, Scan.directive kind body = .functionBegin header
        · obtain ⟨header, begins⟩ := begins
          rw [feedAll_begin _ _ _ begins] at run
          -- The run comes to the end of this block, and from there on to the end of the text.
          obtain ⟨inner, lastKind, lastBody, later, written, next, count, rfl, ends, rendered, run⟩ :=
            (ih shorter others run).inside _ _ rfl
          simp only [List.forall_mem_append, List.forall_mem_cons] at others
          rw [List.reverse_nil, List.nil_append,
            ← flat_definition header.text (rendered.proper others.1)] at run
          have follows := ih (by simp at shorter; omega) others.2.2 run
          have whole := Follows.after closed
            (.marker kind body :: (inner ++ [.marker lastKind lastBody])) _ follows
            fun _ _ after => by simpa using Rendered.block begins ends rendered after
          simpa using whole
        · by_cases ends : Scan.directive kind body = .functionEnd
          · cases opened with
            | nil => exact absurd run (feedAll_unbalanced _ _ ends final)
            | cons block outer =>
              rw [feedAll_end _ _ ends] at run
              refine ⟨by simp, ?_⟩
              rintro _ _ ⟨⟩
              exact ⟨[], kind, body, rest, [], _, _, rfl, ends, .nil, by simpa using run⟩
          · have notBegin : ∀ header, Scan.directive kind body ≠ .functionBegin header :=
              fun header same => begins ⟨header, same⟩
            rw [feedAll_kept _ _ _ notBegin ends, ← single] at run
            exact Follows.after closed [.marker kind body] [.marker kind body]
              (ih shorter others run) fun _ _ => .marker notBegin ends

theorem rendered_of_feedAll {marks : List Mark} {final : Blocks}
    (proper : ∀ mark ∈ marks, Proper mark)
    (run : feedAll path whole empty (pieces 0 marks) = .ok final) (done : final.opened = []) :
    ∃ out, Rendered marks out ∧ final.output.reverse = flat out := by
  obtain ⟨out, rendered, output⟩ := (follows_of_feedAll _ (Nat.lt_succ_self _) proper run done).outside rfl
  exact ⟨out, rendered, by simp [output, empty]⟩

end Blocks

/-- The outcome of a pass made of two. -/
theorem TextPass.value_bind {α β : Type} (first : TextPass α) (next : α → TextPass β) :
    (first >>= next).run.value = first.run.value.bind fun value => (next value).run.value := by
  rw [ExceptT.run_bind, Logged.value_bind]
  cases first.run.value <;> rfl

private theorem value_foldlM_read (path : Path) (whole : Text) (pieces : List Piece)
    (blocks : Blocks) :
    (pieces.foldlM (Blocks.read path whole) blocks : TextPass Blocks).run.value =
      Blocks.feedAll path whole blocks pieces := by
  induction pieces generalizing blocks with
  | nil => rfl
  | cons piece pieces ih =>
    have step : (Blocks.read path whole blocks piece).run.value = blocks.feed path whole piece := by
      unfold Blocks.read
      rw [TextPass.value_bind]
      rfl
    rw [List.foldlM_cons, TextPass.value_bind, step, Blocks.feedAll, List.foldlM_cons]
    cases blocks.feed path whole piece with
    | error problem => rfl
    | ok next => exact ih next

/-- What a pass that renders blocks comes to. -/
theorem value_defineBlocks (path : Path) (text : Text) :
    (defineBlocks path text).run.value =
      (Blocks.feedAll path text Blocks.empty (scan text)).bind (Blocks.finish path) := by
  unfold defineBlocks
  rw [TextPass.value_bind, value_foldlM_read]
  congr 1
  funext final
  rw [TextPass.value_bind]
  change (final.finish path).bind _ = _
  cases final.finish path with
  | error problem => rfl
  | ok output =>
    -- What is logged after that does not change the text.
    by_cases some : final.closed > 0
    · simp only [Except.bind, some, if_true]
      rfl
    · simp [Except.bind, some]

theorem defineBlocks_flat {path : Path} {marks : List Mark} {text : Text}
    (legible : Mark.Legible marks)
    (done : (defineBlocks path (Mark.flat marks)).run.value = .ok text) :
    ∃ out, Mark.Rendered marks out ∧ text = Mark.flat out := by
  rw [value_defineBlocks, Mark.scan_flat legible] at done
  cases run : Blocks.feedAll path (Mark.flat marks) Blocks.empty (Mark.pieces 0 marks) with
  | error problem => simp [run, Except.bind] at done
  | ok final =>
    have finished : final.finish path = .ok text := by simpa [run, Except.bind] using done
    unfold Blocks.finish at finished
    split at finished
    · rename_i opened
      obtain ⟨out, rendered, output⟩ := Blocks.rendered_of_feedAll legible.proper run opened
      exact ⟨out, rendered, (Except.ok.inj finished).symm.trans output⟩
    · simp at finished

end ShaderBuild
