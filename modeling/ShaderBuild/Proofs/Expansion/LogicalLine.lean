import ShaderBuild.Proofs.Expansion.Forest
/-!
What is written for a function block, as lines. All lines of the body are continued, those of the header
are left as they are, so the definition is one logical line exactly when its header is one.
-/
namespace ShaderBuild

/-! ### The outermost blocks of a text -/

namespace Forest

/-- A function block: its begin with the header, what stands inside and its end. -/
structure Block where
  opening : Marker
  header : FunctionHeader
  inner : Forest
  closing : Marker

/-- Text outside of all blocks, or an outermost block. -/
inductive Part where
  | text (written : Text)
  | block (block : Block)

/-- The forest cut at its outermost blocks. -/
def parts : Forest → List Part
  | .empty => []
  | .text before written => before.parts ++ [.text written]
  | .block before opening header _ inner closing _ =>
    before.parts ++ [.block ⟨opening, header, inner, closing⟩]

/-- The forest as it stands in the text. -/
def source (forest : Forest) : Text :=
  forest.pieces.flatMap Piece.text

namespace Block

/-- The block as it stands in the text, from its begin marker to its end marker. -/
def source (block : Block) : Text :=
  block.opening.text ++ (block.inner.source ++ block.closing.text)

/-- What is written in place of the block. -/
def replacement (block : Block) : Text :=
  macroText block.header.text block.inner.render

end Block

namespace Part

def source : Part → Text
  | .text written => written
  | .block own => own.source

/-- Text outside of blocks stays. -/
def replacement : Part → Text
  | .text written => written
  | .block own => own.replacement

end Part

/-- The text is that of the parts, and the output what is written for them, part by part. -/
structure Expands (forest : Forest) (text output : Text) : Prop where
  source : forest.parts.flatMap Part.source = text
  output : forest.parts.flatMap Part.replacement = output

/-- No block stands in the forest. -/
def Flat (forest : Forest) : Prop :=
  ∀ block, .block block ∉ forest.parts

@[simp] theorem source_empty : source .empty = [] := rfl

@[simp] theorem source_text (before : Forest) (written : Text) :
    source (.text before written) = before.source ++ written := by
  rw [source, pieces, List.flatMap_append, flatMap_text_chars, ← source]

@[simp] theorem source_block (before : Forest) (opening : Marker) (header : FunctionHeader)
    (begins : opening.directive = .functionBegin header) (inner : Forest) (closing : Marker)
    (ends : closing.directive = .functionEnd) :
    source (.block before opening header begins inner closing ends) =
      before.source ++ (⟨opening, header, inner, closing⟩ : Block).source := by
  simp [source, pieces, Block.source, Piece.text]

theorem flatMap_source_parts (forest : Forest) : forest.parts.flatMap Part.source = forest.source := by
  induction forest with
  | empty => rfl
  | text before written ih => simp [parts, ih, Part.source]
  | block before opening header begins inner closing ends ih => simp [parts, ih, Part.source]

theorem flatMap_replacement_parts (forest : Forest) :
    forest.parts.flatMap Part.replacement = forest.render := by
  induction forest with
  | empty => rfl
  | text before written ih => simp [parts, ih, Part.replacement, render]
  | block before opening header begins inner closing ends ih =>
    simp only [parts, List.flatMap_append, ih, List.flatMap_singleton, Part.replacement, render]
    rfl

theorem Reads.expands {forest : Forest} {path : Path} {text output : Text} (reads : forest.Reads text)
    (accepted : (defineBlocks path text).run.value = .ok output) : forest.Expands text output where
  source := forest.flatMap_source_parts.trans reads.source
  output := by
    have rendered := (reads.value_defineBlocks path).symm.trans accepted
    rw [flatMap_replacement_parts]
    exact Except.ok.inj rendered

theorem mem_markers_of_mem_parts {forest : Forest} {block : Block} (member : .block block ∈ forest.parts) :
    block.opening ∈ forest.markers ∧ block.opening.directive = .functionBegin block.header ∧
      ∀ marker ∈ block.inner.markers, marker ∈ forest.markers := by
  induction forest with
  | empty => simp [parts] at member
  | text before written ih => simpa using ih (by simpa [parts] using member)
  | block before opening header begins inner closing ends ih =>
    rcases List.mem_append.mp member with earlier | last
    · obtain ⟨opens, reads, inside⟩ := ih earlier
      exact ⟨by simp [opens], reads, fun marker within => by simp [inside marker within]⟩
    · obtain rfl := Part.block.inj (List.mem_singleton.mp last)
      exact ⟨by simp, begins, fun marker within => by simp [within]⟩

end Forest

/-! ### Logical lines -/

/-- Each line end of the text has a backslash right before it. -/
def Continued (text : Text) : Prop :=
  ∀ front rest, text = front ++ '\n' :: rest → front.getLast? = some '\\'

theorem continued_iff_forall_lt {text : Text} : Continued text ↔
    ∀ i < text.length, text[i]? = some '\n' → (text.take i).getLast? = some '\\' := by
  constructor
  · intro continued i _ ends
    obtain ⟨within, ends⟩ := List.getElem?_eq_some_iff.mp ends
    refine continued (text.take i) (text.drop (i + 1)) ?_
    rw [← ends, ← List.drop_eq_getElem_cons within, List.take_append_drop]
  · rintro continued front rest rfl
    simpa using continued front.length (by simp) (by simp)

instance (text : Text) : Decidable (Continued text) :=
  decidable_of_iff _ continued_iff_forall_lt.symm

section
variable {first second text header body : Text}

private theorem continued_of_not_mem (single : '\n' ∉ text) : Continued text := by
  rintro front rest rfl
  simp at single

private theorem Continued.append (continued : Continued first) (later : Continued second) :
    Continued (first ++ second) := by
  intro front rest same
  rcases List.append_eq_append_iff.mp same with ⟨between, rfl, behind⟩ | ⟨between, rfl, behind⟩
  · have last := later between rest behind
    rw [List.getLast?_append, last, Option.some_or]
  · cases between with
    | nil => simpa using later [] rest (by simpa using behind.symm)
    | cons c between =>
      obtain ⟨rfl, -⟩ := List.cons.inj behind
      exact continued front between rfl

private theorem Continued.of_append (continued : Continued (first ++ second)) : Continued first :=
  fun front rest same => continued front (rest ++ second) (by simp [same])

private theorem continued_lineJoint : Continued Text.lineJoint := by
  have listed : Text.lineJoint = [' ', '\\', '\n'] := by decide
  intro front rest same
  rw [listed] at same
  match front, same with
  | [], same => simp at same
  | [a], same => simp at same
  | [a, b], same =>
    obtain ⟨-, same⟩ := List.cons.inj same
    obtain ⟨rfl, -⟩ := List.cons.inj same
    rfl
  | a :: b :: c :: front, same => simp at same

private theorem continued_continueBefore (after : Text) : Continued (Text.continueBefore after text) := by
  induction text with
  | nil => exact continued_of_not_mem (by simp [Text.continueBefore])
  | cons c rest ih =>
    refine Continued.append ?_ ih
    unfold Text.continueChar
    split
    · split
      · exact continued_of_not_mem (by simp)
      · exact continued_lineJoint
    · rename_i inner
      split
      · exact continued_of_not_mem (by simp)
      · exact continued_of_not_mem (by simpa using fun same => inner same.symm)

theorem macroText_eq_continueBefore (header body : Text) : macroText header body =
    "#define ".toList ++ header ++ (Text.lineJoint ++ Text.continueBefore [] body) := by
  rw [← Text.joinWith_lines, ← List.append_assoc]
  rfl

theorem continued_macroText_iff : Continued (macroText header body) ↔ Continued header := by
  have sign : Continued "#define ".toList := continued_of_not_mem (by decide)
  rw [macroText_eq_continueBefore]
  constructor
  · intro continued front rest same
    have last := continued.of_append ("#define ".toList ++ front) rest (by simp [same])
    cases front with
    | nil => simp at last
    | cons c front => simpa [List.getLast?_append] using last
  · intro continued
    exact (sign.append continued).append (continued_lineJoint.append (continued_continueBefore []))

end

/-- For every text that is expanded, what is written for an outermost block is one logical line exactly
when its header is: line ends in the header are the only ones that are not continued. -/
theorem continued_replacement_iff {path : Path} {text output : Text}
    (accepted : (defineBlocks path text).run.value = .ok output) :
    (∃ forest : Forest, forest.Reads text) ∧ ∀ forest : Forest, forest.Reads text →
      forest.Expands text output ∧ ∀ block, .block block ∈ forest.parts →
        (Continued block.replacement ↔ Continued block.header.text) :=
  ⟨exists_reads_of_value accepted, fun _ reads =>
    ⟨reads.expands accepted, fun _ _ => continued_macroText_iff⟩⟩

/-- A block with a header that its author continued, and another block inside. -/
def spreadForest : Forest :=
  .text (.block (.text .empty "a\n".toList)
    ⟨2, "<@func f(x, \\\n y)@>".toList, .functionBegin (.ofText "f(x, \\\n y)".toList)⟩ _ rfl
    (.block (.text .empty "b;\r\n".toList)
      ⟨25, "<@func g@>".toList, .functionBegin (.ofText "g".toList)⟩ _ rfl (.text .empty "c\n".toList)
      ⟨37, "<@endfunc@>".toList, .functionEnd⟩ rfl)
    ⟨48, "<@endfunc@>".toList, .functionEnd⟩ rfl) "\nd".toList

/-- The header is continued, and so is what is written for the block. -/
theorem continued_replacement_iff_spread :
    (defineBlocks ⟨"a.slv".toList⟩
      "a\n<@func f(x, \\\n y)@>b;\r\n<@func g@>c\n<@endfunc@><@endfunc@>\nd".toList).run.value =
        .ok "a\n#define f(x, \\\n y) \\\nb; \\\n#define g \\ \\\nc\nd".toList ∧
    ∃ block, .block block ∈ spreadForest.parts ∧ Continued block.header.text ∧
      Continued block.replacement := by
  have reads : spreadForest.Reads
      "a\n<@func f(x, \\\n y)@>b;\r\n<@func g@>c\n<@endfunc@><@endfunc@>\nd".toList := by
    refine ⟨by decide +kernel, by cbv, ?_⟩
    repeat' constructor
  have rendered : spreadForest.render =
      "a\n#define f(x, \\\n y) \\\nb; \\\n#define g \\ \\\nc\nd".toList := by decide +kernel
  have accepted := (reads.value_defineBlocks ⟨"a.slv".toList⟩).trans (congrArg Except.ok rendered)
  have outermost : ∃ block, .block block ∈ spreadForest.parts ∧
      block.header = .ofText "f(x, \\\n y)".toList := ⟨_, by simp [spreadForest, Forest.parts]; rfl, rfl⟩
  obtain ⟨block, member, written⟩ := outermost
  have continued : Continued block.header.text := by
    rw [written]
    decide +kernel
  exact ⟨accepted, block, member, continued,
    (((continued_replacement_iff accepted).2 spreadForest reads).2 block member).mpr continued⟩

/-- A header over two lines is left as it is: its line end is not continued. -/
theorem not_continued_replacement_lines :
    ∃ (forest : Forest) (block : Forest.Block),
      forest.Reads "<@func f(a,\n b)@>x<@endfunc@>".toList ∧ .block block ∈ forest.parts ∧
      (defineBlocks ⟨"a.slv".toList⟩ "<@func f(a,\n b)@>x<@endfunc@>".toList).run.value =
        .ok "#define f(a,\n b) \\\nx".toList ∧
      block.replacement = "#define f(a,\n b) \\\nx".toList ∧ ¬Continued block.replacement := by
  let block : Forest.Block :=
    { opening := ⟨0, "<@func f(a,\n b)@>".toList, .functionBegin (.ofText "f(a,\n b)".toList)⟩
      header := .ofText "f(a,\n b)".toList
      inner := .text .empty "x".toList
      closing := ⟨18, "<@endfunc@>".toList, .functionEnd⟩ }
  let forest : Forest := .block .empty block.opening block.header rfl block.inner block.closing rfl
  have reads : forest.Reads "<@func f(a,\n b)@>x<@endfunc@>".toList := by
    refine ⟨by decide +kernel, by cbv, ?_⟩
    repeat' constructor
  have written : block.replacement = "#define f(a,\n b) \\\nx".toList := by decide +kernel
  refine ⟨forest, block, reads, by simp [forest, Forest.parts], ?_, written, ?_⟩
  · exact (reads.value_defineBlocks _).trans (congrArg Except.ok (by decide +kernel))
  · rw [written]
    decide +kernel

end ShaderBuild
