import Mathlib
import ShaderBuild.Proofs.Directive.Printing
import ShaderBuild.Proofs.Expansion.Following
import ShaderBuild.Proofs.Expansion.Rewriting
/-!
The text of an expansion does not depend on the files that it includes: an include becomes a line with
its name, wherever the file is found and whatever it holds.
-/
namespace ShaderBuild

section
open Text
variable {body name : Text}

/-- An include is its keyword and one token, with white space between and around the two. -/
theorem Directive.parse_eq_include : Directive.parse body = .include name ↔
    isToken name = true ∧ ∃ lead gap trail, Blank lead ∧ Blank gap ∧ gap ≠ [] ∧ Blank trail ∧
      body = lead ++ (("include".toList ++ (gap ++ name)) ++ trail) := by
  constructor
  · intro read
    obtain ⟨lead, trail, before, behind, whole⟩ := exists_around_trim body
    obtain ⟨word, token, operand⟩ : (firstWord (trim body)).1 = "include".toList ∧
        isToken name = true ∧ trim (firstWord (trim body)).2 = name := by
      have makes := makes_of_parse read (by simp)
      generalize (firstWord (trim body)).1 = keyword at makes ⊢
      generalize trim (firstWord (trim body)).2 = operand at makes ⊢
      cases makes with
      | «include» token => exact ⟨rfl, token, rfl⟩
    have some : (firstWord (trim body)).2 ≠ [] := by
      intro none
      rw [none] at operand
      exact (isToken_iff.mp token).1 operand.symm
    obtain ⟨c, blank, words⟩ := exists_firstWord some
    obtain ⟨gap, rest, around, within, own⟩ := exists_around_trim (firstWord (trim body)).2
    rw [operand] at own
    rw [word, own] at words
    refine ⟨token, lead, c :: gap, rest ++ trail, before, ?_, by simp, ?_, ?_⟩
    · exact List.forall_mem_cons.mpr ⟨blank, around⟩
    · exact List.forall_mem_append.mpr ⟨within, behind⟩
    · rw [whole, words]
      simp
  · rintro ⟨token, lead, gap, trail, before, between, apart, behind, rfl⟩
    have plain : (Directive.include name).Plain := token
    exact plain.parse rfl (.cons between apart (.single name)) before behind

end

/-- The includes of a text, in order: each marker, and the name in it. -/
def includes (text : Text) : List (Marker × Text) :=
  (markers text).filterMap fun marker =>
    match marker.directive with
    | .include name => some (marker, name)
    | _ => none

/-- The line that stands for an include of a name. -/
def includeLine (name : Text) : Text :=
  "#include <".toList ++ name ++ ">".toList

/-- The marker is written as an include of the name: behind the opener the keyword and the name, as one
token, with white space between and around them. -/
def Marker.Names (marker : Marker) (name : Text) : Prop :=
  Text.isToken name = true ∧ ∃ lead gap trail, Text.Blank lead ∧ Text.Blank gap ∧ gap ≠ [] ∧
    Text.Blank trail ∧ marker.text = "<@".toList ++ lead ++ "include".toList ++ gap ++ name ++ trail ++
      "@>".toList

theorem names_of_mem_includes {text name : Text} {marker : Marker}
    (member : (marker, name) ∈ includes text) : marker.Names name := by
  obtain ⟨own, found, same⟩ := List.mem_filterMap.mp member
  split at same
  · rename_i read
    obtain ⟨rfl, rfl⟩ := Prod.mk.inj (Option.some.inj same)
    obtain ⟨_, kind, body, _, _, _, written, _, reads⟩ := spans_of_mem_markers found
    rcases reads with ⟨rfl, parsed⟩ | ⟨_, comment⟩
    · rw [read] at parsed
      obtain ⟨token, lead, gap, trail, before, between, apart, behind, rfl⟩ :=
        Directive.parse_eq_include.mp parsed.symm
      exact ⟨token, lead, gap, trail, before, between, apart, behind, by simp [written]⟩
    · rw [read] at comment
      cases comment
  · cases same

private theorem put_nativeLine (text : Text) :
    Mark.put Include.nativeLine? (markers text) =
      (includes text).map fun found => (found.1, includeLine found.2) := by
  rw [Mark.put, includes, List.map_filterMap]
  refine List.filterMap_congr fun marker _ => ?_
  cases marker.directive <;> rfl

namespace Source

variable {source : Source} {preamble : Preamble} {first second : FileSystem}
  {here there : SearchPath} {one other : Expanded}

/-- What the text of an expansion is made of: the headers, the definitions, and the text that reaches
the includes with a line for each of them. -/
structure Lined (source : Source) (preamble : Preamble) (reached : Text) (headers : List Text)
    (text : Text) : Prop where
  reaches : (defineBlocks source.path source.text).run.value.map settled = .ok reached
  lines : ∃ lines, Rewritten 0 ((includes reached).map fun found => (found.1, includeLine found.2))
    reached lines ∧ text = Text.joinWith ['\n'] (preamble.sections source.stage headers ++ [lines])

/-- What reaches the includes and the headers leave no choice. -/
theorem Lined.unique {reached again : Text} {headers : List Text} {text other : Text}
    (lined : source.Lined preamble reached headers text)
    (linedToo : source.Lined preamble again headers other) : text = other := by
  obtain rfl : reached = again := Except.ok.inj (lined.reaches.symm.trans linedToo.reaches)
  obtain ⟨lines, rewritten, rfl⟩ := lined.lines
  obtain ⟨linesToo, rewrittenToo, rfl⟩ := linedToo.lines
  rw [rewritten.unique rewrittenToo]

theorem lined_of_expand (expands : ((source.expand first here preamble).run first).value = .ok one) :
    ∃ reached headers, List.Forall₂ (fun path text => first.readText path = .ok text)
      preamble.headers headers ∧ source.Lined preamble reached headers one.text := by
  obtain ⟨rendered, included, headers, blocks, -, -, heads, rfl⟩ := expand_eq_ok.mp expands
  refine ⟨settled rendered, headers, Expanding.mapM_readText_eq_ok.mp heads, ?_, _, ?_, rfl⟩
  · rw [blocks]
    rfl
  · rw [← put_nativeLine]
    exact rewritten_replaceMarkers Include.nativeLine? (settled rendered)

private theorem texts_unique {paths : List Path} {texts others : List Text}
    (same : ∀ path ∈ paths, first.readText path = second.readText path)
    (reads : List.Forall₂ (fun path text => first.readText path = .ok text) paths texts)
    (readsToo : List.Forall₂ (fun path text => second.readText path = .ok text) paths others) :
    texts = others := by
  induction reads generalizing others with
  | nil =>
    cases readsToo
    rfl
  | @cons path text paths texts read reads ih =>
    cases readsToo with
    | cons readToo readsToo =>
      rw [same path List.mem_cons_self] at read
      obtain rfl := Except.ok.inj (read.symm.trans readToo)
      rw [ih (fun path member => same path (List.mem_cons_of_mem _ member)) readsToo]

/-- Two expansions of one source with the same headers, over any two file systems and search paths,
differ in their dependencies at most. In the text, behind the headers and the definitions, each include
that reaches the last pass stands as one line with its name as written, and all else stays. -/
theorem text_of_expand
    (same : ∀ header ∈ preamble.headers, first.readText header = second.readText header)
    (expands : ((source.expand first here preamble).run first).value = .ok one)
    (expandsToo : ((source.expand second there preamble).run second).value = .ok other) :
    { one with dependencies := other.dependencies } = other ∧
      ∃ reached headers lines,
        (defineBlocks source.path source.text).run.value.map settled = .ok reached ∧
        Rewritten 0 ((includes reached).map fun found => (found.1, includeLine found.2)) reached
          lines ∧
        (∀ found ∈ includes reached, found.1.Names found.2) ∧
        one.text = Text.joinWith ['\n'] (preamble.sections source.stage headers ++ [lines]) := by
  obtain ⟨reached, headers, reads, lined⟩ := lined_of_expand expands
  obtain ⟨again, headersToo, readsToo, linedToo⟩ := lined_of_expand expandsToo
  obtain rfl := texts_unique same reads readsToo
  obtain ⟨lines, rewritten, whole⟩ := lined.lines
  refine ⟨?_, reached, headers, lines, lined.reaches, rewritten, ?_, whole⟩
  · rw [lined.unique linedToo]
  · exact fun found member => names_of_mem_includes member

/-- A header, and a file to include in a folder of its own. -/
def shelf (folder : String) (held : Text) : FileSystem :=
  let file (text : Text) : Node := .file ⟨.text text, 0, false, false⟩
  ⟨[([folder.toList], .directory), ([folder.toList, "b".toList], file held),
    (["h".toList], file "top".toList)], [], Path.of "/"⟩

/-- A source that includes one file twice, in two ways of writing it. -/
def twice : Source :=
  ⟨Path.of "/a.slv", "<@include b@>\n<@ include  b @>\n".toList, .vertex⟩

private theorem expand_twice {files : FileSystem} {search : SearchPath} {included : PathSet}
    (follows : Include.outcome files search
      [.fetch (Path.of "/a.slv") "b".toList, .fetch (Path.of "/a.slv") "b".toList] PathSet.empty =
        .ok included)
    (head : files.readText (Path.of "/h") = .ok "top".toList) :
    ∃ text, ((twice.expand files search ⟨[Path.of "/h"], []⟩).run files).value =
      .ok ⟨text, included.withSource files (Path.of "/a.slv") [Path.of "/h"]⟩ := by
  refine ⟨_, expand_eq_ok.mpr ⟨"<@include b@>\n<@ include  b @>\n".toList, included, ["top".toList],
    by cbv, ?_, by cbv, ?_, rfl⟩⟩
  · have asks : Errand.ofText (Path.of "/a.slv") (settled "<@include b@>\n<@ include  b @>\n".toList) =
        [.fetch (Path.of "/a.slv") "b".toList, .fetch (Path.of "/a.slv") "b".toList] := by cbv
    change Include.outcome _ _ (Errand.ofText (Path.of "/a.slv") (settled _)) _ = _
    rw [asks, follows]
  · exact Expanding.mapM_readText_eq_ok.mpr (.cons head .nil)

/-- The included file lies in another folder, and it includes itself: the source expands to the same
text, and the dependencies are others. -/
theorem text_of_expand_shelf : ∃ text near far,
    ((twice.expand (shelf "near" []) ⟨[Path.of "/near"]⟩ ⟨[Path.of "/h"], []⟩).run
      (shelf "near" [])).value = .ok ⟨text, near⟩ ∧
    ((twice.expand (shelf "far" "<@include b@>".toList) ⟨[Path.of "/far"]⟩ ⟨[Path.of "/h"], []⟩).run
      (shelf "far" "<@include b@>".toList)).value = .ok ⟨text, far⟩ ∧
    near ≠ far := by
  have same : ∀ header ∈ [Path.of "/h"], (shelf "near" []).readText header =
      (shelf "far" "<@include b@>".toList).readText header :=
    List.forall_mem_singleton.mpr (by cbv)
  have plain : Include.outcome (shelf "near" []) ⟨[Path.of "/near"]⟩
      [.fetch (Path.of "/a.slv") "b".toList, .fetch (Path.of "/a.slv") "b".toList] PathSet.empty =
        .ok ⟨[Path.of "/near/b"]⟩ := by
    have found : (⟨[Path.of "/near"]⟩ : SearchPath).resolve? (shelf "near" []) "b".toList =
        some (Path.of "/near/b") := by cbv
    have read : (shelf "near" []).readText (Path.of "/near/b") = .ok [] := by cbv
    rw [Include.outcome_read _ found rfl, read]
    change Include.outcome _ _ [_] ⟨[Path.of "/near/b"]⟩ = _
    rw [Include.outcome_present _ found rfl, Include.outcome_nil]
  have cyclic : Include.outcome (shelf "far" "<@include b@>".toList) ⟨[Path.of "/far"]⟩
      [.fetch (Path.of "/a.slv") "b".toList, .fetch (Path.of "/a.slv") "b".toList] PathSet.empty =
        .ok ⟨[Path.of "/far/b"]⟩ := by
    have found : (⟨[Path.of "/far"]⟩ : SearchPath).resolve? (shelf "far" "<@include b@>".toList)
        "b".toList = some (Path.of "/far/b") := by cbv
    have read : (shelf "far" "<@include b@>".toList).readText (Path.of "/far/b") =
        .ok "<@include b@>".toList := by cbv
    have asks : Errand.ofText (Path.of "/far/b") "<@include b@>".toList =
        [.fetch (Path.of "/far/b") "b".toList] := by cbv
    rw [Include.outcome_read _ found rfl, read]
    change Include.outcome _ _ (Errand.ofText (Path.of "/far/b") _ ++ _) ⟨[Path.of "/far/b"]⟩ = _
    rw [asks, List.singleton_append, Include.outcome_present _ found rfl,
      Include.outcome_present _ found rfl, Include.outcome_nil]
  obtain ⟨one, expands⟩ := expand_twice plain (by cbv)
  obtain ⟨other, expandsToo⟩ := expand_twice cyclic (by cbv)
  obtain ⟨equal, -⟩ := text_of_expand same expands expandsToo
  obtain rfl : one = other := congrArg Expanded.text equal
  exact ⟨one, _, _, expands, expandsToo, by decide +kernel⟩

end Source

end ShaderBuild
