import ShaderBuild.Proofs.Directive.Ranges
import ShaderBuild.Proofs.Expansion.LogicalLine
/-!
What is left of a macro definition once a preprocessor has spliced its lines. Each character of the
definition is followed from where it comes: one of the source, or one that rendering puts there. All
backslashes left are those of the source exactly when no block stands inside the block, since the lines
of an inner definition, continued already, are continued once more.
-/
namespace ShaderBuild

/-! ### Splicing -/

/-- Every backslash that stands right before a line end is taken out, and this line end with it. -/
def splice {α : Type} (char : α → Char) : List α → List α
  | [] => []
  | [last] => [last]
  | first :: second :: rest =>
    if char first = '\\' ∧ char second = '\n' then splice char rest
    else first :: splice char (second :: rest)

section
variable {α β : Type} {char : α → Char}

theorem splice_sublist (char : α → Char) (list : List α) : (splice char list).Sublist list := by
  induction list using splice.induct char with
  | case1 => exact List.Sublist.refl _
  | case2 last => exact List.Sublist.refl _
  | case3 first second rest pair ih =>
    rw [splice, if_pos pair]
    exact (ih.cons second).cons first
  | case4 first second rest apart ih =>
    rw [splice, if_neg apart]
    exact ih.cons_cons first

theorem splice_of_forall_ne {list : List α} (plain : ∀ one ∈ list, char one ≠ '\\') :
    splice char list = list := by
  induction list using splice.induct char with
  | case1 => rfl
  | case2 last => rfl
  | case3 first second rest pair ih => exact absurd pair.1 (plain first (by simp))
  | case4 first second rest apart ih =>
    rw [splice, if_neg apart, ih fun one later => plain one (List.mem_cons_of_mem _ later)]

theorem map_splice (make : α → β) (char : β → Char) (list : List α) :
    (splice (fun one => char (make one)) list).map make = splice char (list.map make) := by
  induction list using splice.induct (fun one => char (make one)) with
  | case1 => rfl
  | case2 last => rfl
  | case3 first second rest pair ih => simpa [splice, pair] using ih
  | case4 first second rest apart ih => simpa [splice, apart] using ih

theorem splice_append {front back : List α}
    (apart : ¬(front.getLast?.map char = some '\\' ∧ back.head?.map char = some '\n')) :
    splice char (front ++ back) = splice char front ++ splice char back := by
  induction front using splice.induct char with
  | case1 => rfl
  | case2 last =>
    cases back with
    | nil => rfl
    | cons next back =>
      have kept : ¬(char last = '\\' ∧ char next = '\n') := by simpa using apart
      simp [splice, kept]
  | case3 first second rest pair ih =>
    -- The last character is a line end, or that of the rest.
    have later : splice char (rest ++ back) = splice char rest ++ splice char back := by
      refine ih fun across => apart ⟨?_, across.2⟩
      rw [List.getLast?_cons_cons, List.getLast?_cons]
      cases last : rest.getLast? with
      | none => simp [last] at across
      | some one => simpa [last] using across.1
    simpa [splice, pair] using later
  | case4 first second rest other ih =>
    have later := ih fun across => apart ⟨by simpa using across.1, across.2⟩
    simpa [splice, other] using later

theorem splice_append_of_head {front back : List α} (whole : back.head?.map char ≠ some '\n') :
    splice char (front ++ back) = splice char front ++ splice char back :=
  splice_append fun across => whole across.2

end

/-! ### Where characters come from -/

/-- A character of what is written: one of the source, or one that rendering puts there. -/
inductive Glyph where
  | own (c : Char)
  | made (c : Char)
  deriving DecidableEq

namespace Glyph

def char : Glyph → Char
  | .own c => c
  | .made c => c

def isOwn : Glyph → Bool
  | .own _ => true
  | .made _ => false

def isBackslash (glyph : Glyph) : Bool :=
  glyph.char = '\\'

/-- Lines joined by `joint`, character by character: it takes the place of each line end but the last
one, and a return before a line end is dropped. -/
def joinLines (joint : List Glyph) : List Glyph → List Glyph
  | [] => []
  | glyph :: rest =>
    (if glyph.char = '\n' then (if rest.isEmpty then [] else joint)
      else if glyph.char = '\r' ∧ rest.head?.map char = some '\n' then []
      else [glyph]) ++ joinLines joint rest

/-- What stands between two continued lines. -/
def continuation : List Glyph :=
  [.made ' ', .made '\\', .made '\n']

/-- What a macro definition begins with. -/
def sign : List Glyph :=
  "#define ".toList.map .made

/-- The macro definition of a block, by character. -/
def ofMacro (header : Text) (body : List Glyph) : List Glyph :=
  sign ++ (header.map .own ++ (continuation ++ joinLines continuation body))

variable {header : Text} {joint body : List Glyph}

@[simp] theorem char_own (c : Char) : (own c).char = c := rfl

@[simp] theorem char_made (c : Char) : (made c).char = c := rfl

theorem map_char_own (text : Text) : (text.map own).map char = text := by
  simp [Function.comp_def]

theorem map_char_made (text : Text) : (text.map made).map char = text := by
  simp [Function.comp_def]

theorem map_char_sign : sign.map char = "#define ".toList :=
  map_char_made _

theorem map_char_continuation : continuation.map char = Text.lineJoint := by
  decide

theorem map_char_joinLines (lines : joint.map char = Text.lineJoint) (body : List Glyph) :
    (joinLines joint body).map char = Text.continueBefore [] (body.map char) := by
  induction body with
  | nil => rfl
  | cons glyph rest ih =>
    rw [joinLines, List.map_append, ih, List.map_cons, Text.continueBefore, List.append_nil,
      Text.continueChar, List.head?_map, List.isEmpty_map]
    split
    · split
      · rfl
      · rw [lines]
    · split <;> rfl

theorem map_char_ofMacro (header : Text) (body : List Glyph) :
    (ofMacro header body).map char = macroText header (body.map char) := by
  rw [macroText_eq_continueBefore, ofMacro, List.map_append, List.map_append, List.map_append,
    map_char_joinLines map_char_continuation, map_char_continuation, map_char_own, map_char_sign,
    List.append_assoc]

theorem head?_joinLines (lead : joint.head? = some (.made ' ')) (body : List Glyph) :
    (joinLines joint body).head?.map char ≠ some '\n' := by
  induction body with
  | nil => simp [joinLines]
  | cons glyph rest ih =>
    rw [joinLines]
    split
    · split
      · exact ih
      · simp [List.head?_append, lead]
    · rename_i inner
      split
      · exact ih
      · simpa using inner

theorem splice_joinLines (body : List Glyph) :
    splice char (joinLines continuation body) = joinLines [.made ' '] body := by
  have spliced (front : List Glyph) (rest : List Glyph) :
      splice char (front ++ joinLines continuation rest) =
        splice char front ++ splice char (joinLines continuation rest) :=
    splice_append_of_head (head?_joinLines rfl rest)
  induction body with
  | nil => rfl
  | cons glyph rest ih =>
    rw [joinLines, spliced, ih, joinLines]
    congr 1
    split
    · split <;> rfl
    · split <;> rfl

theorem char_ne_of_mem_sign {glyph : Glyph} (member : glyph ∈ sign) : glyph.char ≠ '\\' := by
  have kept : glyph.char ∈ sign.map char := List.mem_map_of_mem member
  rw [map_char_sign] at kept
  intro same
  rw [same] at kept
  exact absurd kept (by decide)

theorem splice_ofMacro (header : Text) (body : List Glyph) :
    splice char (ofMacro header body) =
      sign ++ (splice char (header.map .own) ++ (.made ' ' :: joinLines [.made ' '] body)) := by
  have cut : ¬(sign.getLast?.map char = some '\\' ∧
      (header.map own ++ (continuation ++ joinLines continuation body)).head?.map char = some '\n') := by
    rintro ⟨last, -⟩
    obtain ⟨glyph, some, same⟩ := Option.map_eq_some_iff.mp last
    exact char_ne_of_mem_sign (List.mem_of_getLast? some) same
  rw [ofMacro, splice_append cut, splice_of_forall_ne fun _ => char_ne_of_mem_sign,
    splice_append_of_head (by simp [continuation]), splice_append_of_head (head?_joinLines rfl body),
    splice_joinLines]
  rfl

theorem filter_isBackslash_joinLines (none : joint.filter isBackslash = []) (body : List Glyph) :
    (joinLines joint body).filter isBackslash = body.filter isBackslash := by
  induction body with
  | nil => rfl
  | cons glyph rest ih =>
    rw [joinLines, List.filter_append, ih, List.filter_cons]
    split
    · rename_i ends
      have other : glyph.isBackslash = false := by simp [isBackslash, ends]
      split <;> simp [other, none]
    · split
      · rename_i dropped
        have other : glyph.isBackslash = false := by simp [isBackslash, dropped.1]
        simp [other]
      · cases kept : glyph.isBackslash <;> simp [kept]

theorem filter_isOwn_joinLines (foreign : joint.filter isOwn = []) (body : List Glyph) :
    ((joinLines joint body).filter isOwn).Sublist (body.filter isOwn) := by
  induction body with
  | nil => exact List.Sublist.refl _
  | cons glyph rest ih =>
    rw [joinLines, List.filter_append, show glyph :: rest = [glyph] ++ rest from rfl, List.filter_append]
    refine List.Sublist.append ?_ ih
    split
    · split <;> simp [foreign]
    · split
      · simp
      · exact List.Sublist.refl _

theorem filter_isOwn_ofMacro (header : Text) (body : List Glyph) :
    ((ofMacro header body).filter isOwn).Sublist (header.map .own ++ body.filter isOwn) := by
  have foreign : sign.filter isOwn = [] := by
    refine List.filter_eq_nil_iff.mpr fun glyph member => ?_
    obtain ⟨c, -, rfl⟩ := List.mem_map.mp member
    exact Bool.false_ne_true
  have joint : continuation.filter isOwn = [] := rfl
  have own : (header.map own).filter isOwn = header.map .own := by
    refine List.filter_eq_self.mpr fun glyph member => ?_
    obtain ⟨c, -, rfl⟩ := List.mem_map.mp member
    rfl
  rw [ofMacro, List.filter_append, foreign, List.filter_append, own, List.filter_append, joint,
    List.nil_append, List.nil_append]
  exact List.Sublist.append (List.Sublist.refl _) (filter_isOwn_joinLines joint body)

/-- Joined by spaces, lines have the words of their text. -/
theorem words_joinLines (front : Text) (body : List Glyph) :
    Text.words (front ++ (joinLines [.made ' '] body).map char) =
      Text.words (front ++ body.map char) := by
  have feed : Text.isBlank '\n' = true := by decide
  induction body generalizing front with
  | nil => rfl
  | cons glyph rest ih =>
    rw [joinLines, List.map_append, List.map_cons]
    split
    · rename_i ends
      rw [ends, Text.words_append _ _ feed]
      cases rest with
      | nil => simp [joinLines]
      | cons next rest =>
        have later := ih []
        simp only [List.nil_append] at later
        rw [← later]
        exact Text.words_append front _ (by decide)
    · split
      · rename_i dropped
        obtain ⟨returns, follows⟩ := dropped
        obtain ⟨next, rest, rfl⟩ : ∃ next later, rest = next :: later := by
          cases rest with
          | nil => simp at follows
          | cons next later => exact ⟨next, later, rfl⟩
        have ends : next.char = '\n' := by simpa using follows
        have blank : Text.isBlank '\r' = true := by decide
        rw [List.map_nil, List.nil_append, ih front, List.map_cons, returns, ends,
          Text.words_append _ _ blank, Text.words_blank feed, Text.words_append _ _ feed]
      · simpa using ih (front ++ [glyph.char])

end Glyph

/-! ### Blocks -/

namespace Forest

variable {forest : Forest}

/-- The rendered forest, by character. -/
def trace : Forest → List Glyph
  | .empty => []
  | .text before written => before.trace ++ written.map .own
  | .block before _ header _ inner _ _ => before.trace ++ Glyph.ofMacro header.text inner.trace

theorem map_char_trace (forest : Forest) : forest.trace.map Glyph.char = forest.render := by
  induction forest with
  | empty => rfl
  | text before written ih => rw [trace, List.map_append, ih, Glyph.map_char_own, render]
  | block before opening header begins inner closing ends ihBefore ihInner =>
    rw [trace, List.map_append, ihBefore, Glyph.map_char_ofMacro, ihInner]
    rfl

theorem trace_of_flat (flat : forest.Flat) : forest.trace = forest.source.map .own := by
  induction forest with
  | empty => rfl
  | text before written ih =>
    rw [trace, ih fun block member => flat block (by simp [parts, member]), source_text, List.map_append]
  | block before opening header begins inner closing ends =>
    exact absurd (by simp [parts]) (flat ⟨opening, header, inner, closing⟩)

theorem made_mem_trace {block : Block} (member : .block block ∈ forest.parts) :
    .made '\\' ∈ forest.trace := by
  induction forest with
  | empty => simp [parts] at member
  | text before written ih =>
    rw [trace]
    exact List.mem_append_left _ (ih (by simpa [parts] using member))
  | block before opening header begins inner closing ends =>
    rw [trace]
    refine List.mem_append_right _ ?_
    simp [Glyph.ofMacro, Glyph.continuation]

/-- What is written in place of the block, by character. -/
def Block.trace (block : Block) : List Glyph :=
  Glyph.ofMacro block.header.text block.inner.trace

private theorem Block.filter_isOwn_trace {block : Block} (part : block.header.text <:+: block.opening.text)
    (inside : (block.inner.trace.filter Glyph.isOwn).Sublist (block.inner.source.map .own)) :
    (block.trace.filter Glyph.isOwn).Sublist (block.source.map .own) := by
  refine (Glyph.filter_isOwn_ofMacro block.header.text block.inner.trace).trans ?_
  rw [source, List.map_append, List.map_append]
  exact List.Sublist.append (part.sublist.map _) (inside.trans (List.sublist_append_left _ _))

theorem filter_isOwn_trace {text : Text}
    (within : ∀ marker ∈ forest.markers, marker ∈ ShaderBuild.markers text) :
    (forest.trace.filter Glyph.isOwn).Sublist (forest.source.map .own) := by
  induction forest with
  | empty => exact List.Sublist.refl _
  | text before written ih =>
    rw [trace, List.filter_append, source_text, List.map_append]
    exact List.Sublist.append (ih (by simpa using within)) List.filter_sublist
  | block before opening header begins inner closing ends ihBefore ihInner =>
    rw [trace, List.filter_append, source_block, List.map_append]
    have part : header.text <:+: opening.text := header_isInfix (within opening (by simp)) begins
    have inside := ihInner fun marker member => within marker (by simp [member])
    exact List.Sublist.append (ihBefore fun marker member => within marker (by simp [member]))
      (@Block.filter_isOwn_trace ⟨opening, header, inner, closing⟩ part inside)

namespace Block

variable {block : Block}

/-- Once the lines are spliced, the backslashes that are left are backslashes of the source of the
block, in the order of the source. -/
def Faithful (block : Block) : Prop :=
  ((splice Glyph.char block.trace).filter Glyph.isBackslash).Sublist (block.source.map .own)

/-- The glyphs are those of what is written for the block, and stay so when lines are spliced; those of
the source stand in its order. -/
structure Traced (block : Block) : Prop where
  written : block.trace.map Glyph.char = block.replacement
  spliced : (splice Glyph.char block.trace).map Glyph.char = splice id block.replacement
  own : (block.trace.filter Glyph.isOwn).Sublist (block.source.map .own)

theorem map_char_trace (block : Block) : block.trace.map Glyph.char = block.replacement := by
  rw [trace, Glyph.map_char_ofMacro, Forest.map_char_trace, replacement]

theorem map_char_splice_trace (block : Block) :
    (splice Glyph.char block.trace).map Glyph.char = splice id block.replacement :=
  (map_splice Glyph.char id block.trace).trans (congrArg (splice id) block.map_char_trace)

theorem filter_isBackslash_splice_trace (block : Block) :
    (splice Glyph.char block.trace).filter Glyph.isBackslash =
      (splice Glyph.char (block.header.text.map .own)).filter Glyph.isBackslash ++
        block.inner.trace.filter Glyph.isBackslash := by
  have plain : Glyph.sign.filter Glyph.isBackslash = [] :=
    List.filter_eq_nil_iff.mpr fun glyph member => by
      simpa [Glyph.isBackslash] using Glyph.char_ne_of_mem_sign member
  rw [trace, Glyph.splice_ofMacro, List.filter_append, plain, List.nil_append, List.filter_append,
    ← @Glyph.filter_isBackslash_joinLines [.made ' '] rfl block.inner.trace]
  rfl

theorem faithful_iff (part : block.header.text <:+: block.opening.text) :
    block.Faithful ↔ block.inner.Flat := by
  rw [Faithful, filter_isBackslash_splice_trace]
  constructor
  · -- A block inside has brought in a backslash that is not one of the source.
    intro faithful nested member
    have kept : .made '\\' ∈ block.inner.trace.filter Glyph.isBackslash :=
      List.mem_filter.mpr ⟨made_mem_trace member, by decide⟩
    have own := faithful.subset (List.mem_append_right _ kept)
    simp at own
  · intro flat
    rw [trace_of_flat flat, source, List.map_append, List.map_append]
    refine List.Sublist.append ?_ (List.filter_sublist.trans (List.sublist_append_left _ _))
    exact List.filter_sublist.trans ((splice_sublist _ _).trans (part.sublist.map _))

theorem words_splice_replacement (block : Block) :
    Text.words (splice id block.replacement) =
      "#define".toList :: (Text.words (splice id block.header.text) ++ Text.words block.inner.render) := by
  have header : (splice Glyph.char (block.header.text.map .own)).map Glyph.char = splice id block.header.text :=
    (map_splice Glyph.char id _).trans (congrArg (splice id) (Glyph.map_char_own _))
  have body := Glyph.words_joinLines [] block.inner.trace
  rw [List.nil_append, List.nil_append, Forest.map_char_trace] at body
  have sign : Glyph.sign.map Glyph.char = "#define".toList ++ [' '] := by
    rw [Glyph.map_char_sign]
    decide
  rw [← map_char_splice_trace, trace, Glyph.splice_ofMacro, List.map_append, List.map_append,
    List.map_cons, header, sign, List.append_assoc, List.singleton_append,
    Text.words_append _ _ (by decide), Text.words_append _ _ (by decide), body,
    Text.words_token (by decide)]
  rfl

end Block

end Forest

/-- For every text that is expanded and each of its outermost blocks: once the lines of what is written
for the block are spliced, the backslashes left are those of the source, in order, exactly when no
block stands inside; then the words left are those of the header and of the body. -/
theorem faithful_iff_flat {path : Path} {text output : Text}
    (accepted : (defineBlocks path text).run.value = .ok output) :
    (∃ forest : Forest, forest.Reads text) ∧ ∀ forest : Forest, forest.Reads text →
      forest.Expands text output ∧ ∀ block, .block block ∈ forest.parts →
        block.Traced ∧ (block.Faithful ↔ block.inner.Flat) ∧
        (block.inner.Flat → Text.words (splice id block.replacement) =
          "#define".toList :: (Text.words (splice id block.header.text) ++ Text.words block.inner.source)) := by
  refine ⟨exists_reads_of_value accepted, fun forest reads => ⟨reads.expands accepted, ?_⟩⟩
  intro block member
  have listed : ∀ marker ∈ forest.markers, marker ∈ markers text := by
    intro marker within
    rw [reads.markers] at within
    exact List.mem_of_mem_filter within
  obtain ⟨opens, begins, inside⟩ := Forest.mem_markers_of_mem_parts member
  have part : block.header.text <:+: block.opening.text := header_isInfix (listed _ opens) begins
  have own := Forest.filter_isOwn_trace fun marker within => listed marker (inside marker within)
  refine ⟨⟨block.map_char_trace, block.map_char_splice_trace, Forest.Block.filter_isOwn_trace part own⟩,
    Forest.Block.faithful_iff part, fun flat => ?_⟩
  have same : block.inner.render = block.inner.source := by
    rw [← Forest.map_char_trace, Forest.trace_of_flat flat, Glyph.map_char_own]
  rw [block.words_splice_replacement, same]

/-- A block with a header that its author continued, and a backslash in its body. -/
def escapedForest : Forest :=
  .block .empty ⟨0, "<@func f(x, \\\n y)@>".toList, .functionBegin (.ofText "f(x, \\\n y)".toList)⟩
    _ rfl (.text .empty "a\\b\r\nc\n".toList)
    ⟨26, "<@endfunc@>".toList, .functionEnd⟩ rfl

/-- The backslash of the body is the only one that is left. -/
theorem faithful_iff_flat_escaped :
    (defineBlocks ⟨"a.slv".toList⟩ "<@func f(x, \\\n y)@>a\\b\r\nc\n<@endfunc@>".toList).run.value =
      .ok "#define f(x, \\\n y) \\\na\\b \\\nc".toList ∧
    ∃ block, .block block ∈ escapedForest.parts ∧ block.inner.Flat ∧ block.Faithful ∧
      Text.words (splice id block.replacement) =
        ["#define".toList, "f(x,".toList, "y)".toList, "a\\b".toList, "c".toList] := by
  have reads : escapedForest.Reads "<@func f(x, \\\n y)@>a\\b\r\nc\n<@endfunc@>".toList := by
    refine ⟨by decide +kernel, by cbv, ?_⟩
    repeat' constructor
  have rendered : escapedForest.render = "#define f(x, \\\n y) \\\na\\b \\\nc".toList := by decide +kernel
  have accepted := (reads.value_defineBlocks ⟨"a.slv".toList⟩).trans (congrArg Except.ok rendered)
  have outermost : ∃ block, .block block ∈ escapedForest.parts ∧
      block.header = .ofText "f(x, \\\n y)".toList ∧ block.inner = .text .empty "a\\b\r\nc\n".toList :=
    ⟨_, by simp [escapedForest, Forest.parts]; rfl, rfl, rfl⟩
  obtain ⟨block, member, header, inner⟩ := outermost
  have flat : block.inner.Flat := by
    rw [inner]
    simp [Forest.Flat, Forest.parts]
  obtain ⟨-, faithful, words⟩ := ((faithful_iff_flat accepted).2 escapedForest reads).2 block member
  refine ⟨accepted, block, member, flat, faithful.mpr flat, (words flat).trans ?_⟩
  rw [header, inner]
  decide +kernel

/-- A backslash is left of a block without any: the lines of the inner definition are continued twice. -/
theorem backslash_mem_splice_nested :
    ∃ (forest : Forest) (block : Forest.Block),
      forest.Reads "<@func f@><@func g@>b<@endfunc@><@endfunc@>".toList ∧ .block block ∈ forest.parts ∧
      (defineBlocks ⟨"a.slv".toList⟩ "<@func f@><@func g@>b<@endfunc@><@endfunc@>".toList).run.value =
        .ok "#define f \\\n#define g \\ \\\nb".toList ∧
      block.replacement = "#define f \\\n#define g \\ \\\nb".toList ∧
      '\\' ∈ splice id block.replacement ∧ '\\' ∉ block.source := by
  let inner : Forest := .block .empty
    ⟨10, "<@func g@>".toList, .functionBegin (.ofText "g".toList)⟩ _ rfl (.text .empty "b".toList)
    ⟨21, "<@endfunc@>".toList, .functionEnd⟩ rfl
  let block : Forest.Block :=
    { opening := ⟨0, "<@func f@>".toList, .functionBegin (.ofText "f".toList)⟩
      header := .ofText "f".toList
      inner := inner
      closing := ⟨32, "<@endfunc@>".toList, .functionEnd⟩ }
  let forest : Forest := .block .empty block.opening block.header rfl block.inner block.closing rfl
  have reads : forest.Reads "<@func f@><@func g@>b<@endfunc@><@endfunc@>".toList := by
    refine ⟨by decide +kernel, by cbv, ?_⟩
    repeat' constructor
  refine ⟨forest, block, reads, by simp [forest, Forest.parts], ?_, by decide +kernel, by decide +kernel,
    by decide +kernel⟩
  exact (reads.value_defineBlocks _).trans (congrArg Except.ok (by decide +kernel))

end ShaderBuild
