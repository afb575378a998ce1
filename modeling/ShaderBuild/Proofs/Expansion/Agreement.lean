import Mathlib
import ShaderBuild.Proofs.Expansion.Following
import ShaderBuild.Proofs.FileSystem.Home
/-!
Listing the dependencies of a source agrees with expanding it.
-/
namespace ShaderBuild

namespace Source

open Mark

variable {files : FileSystem} {search : SearchPath} {marks : List Mark}

private theorem settled_rendered {out : List Mark} (renders : Rendered marks out)
    (legible : Legible marks) (separate : Separate marks) :
    Legible (out.flatMap (rewrite settle)) ∧
      settled (flat out) = flat (out.flatMap (rewrite settle)) := by
  have reads {replace : Directive → Option Text} :
      (∀ directive line, replace directive = some line → settle directive = some line) →
        Legible (out.flatMap (rewrite replace)) := renders.legible legible.proper separate
  have kept : Legible out := flatMap_keep out ▸ reads (by simp)
  exact ⟨reads fun _ _ => id, settled_flat kept (reads settle_comment)⟩

private theorem leftover?_of_check {path : Path} {text : Text}
    (passed : checkLeftovers path text = .ok ()) : leftover? text = none := by
  unfold checkLeftovers at passed
  split at passed
  · rename_i none
    rw [leftover?, none]
    rfl
  · simp at passed

theorem collect_settled {path : Path} {rendered : Text} (legible : Legible marks)
    (separate : Separate marks) (blocks : (defineBlocks path (flat marks)).run.value = .ok rendered)
    (passed : checkLeftovers path (replaceMarkers Include.nativeLine? (settled rendered)).value =
      .ok ()) (other : Path) :
    (((Include.collect files search path (settled rendered)).run files).value).toOption =
      (((Include.collect files search other (flat marks)).run files).value).toOption := by
  obtain ⟨out, renders, rfl⟩ := defineBlocks_flat legible blocks
  obtain ⟨reads, settled⟩ := settled_rendered renders legible separate
  rw [settled] at passed ⊢
  rw [replaceMarkers_flat _ reads] at passed
  have asks : asked (out.flatMap (rewrite settle)) = asked marks :=
    (asked_settle out).trans (renders.asked legible.proper separate (leftover?_of_check passed))
  exact Include.collect_congr reads legible asks path other

theorem included_of_body {source : Source} (legible : Legible marks) (separate : Separate marks)
    (same : source.text = flat marks) {text : Text} {included : PathSet}
    (done : ((source.body files search).run files).value = .ok (text, included)) (path : Path) :
    ((Include.collect files search path (flat marks)).run files).value = .ok included := by
  rw [value_body, same] at done
  obtain ⟨rendered, blocks, done⟩ := bind_eq_ok.mp done
  obtain ⟨found, follows, done⟩ := bind_eq_ok.mp done
  obtain ⟨_, passed, done⟩ := bind_eq_ok.mp done
  have agree := @collect_settled files search marks source.path rendered legible separate blocks
    passed path
  obtain rfl : found = included := (Prod.mk.inj (Except.ok.inj done)).2
  rw [follows] at agree
  cases collected : ((Include.collect files search path (flat marks)).run files).value with
  | error problem => simp [collected, Except.toOption] at agree
  | ok set =>
    have equal : found = set := by simpa [collected, Except.toOption] using agree
    rw [equal]

/-- Whenever a source whose markers stand apart expands, listing its dependencies gives those of its
expansion: the same paths in the same order. -/
theorem discover_of_expand (home : files.Home) {path : Path} {preamble : Preamble}
    {expanded : Expanded} (read : files.readText path = .ok (flat marks)) (legible : Legible marks)
    (separate : Separate marks)
    (expands : ((Source.read files path >>= fun source =>
      source.expand files search preamble).run files).value = .ok expanded) :
    ((discover files search path preamble.headers).run files).value = .ok expanded.dependencies := by
  rw [Expanding.value_bind] at expands
  obtain ⟨source, reads, expands⟩ := bind_eq_ok.mp expands
  cases known : ShaderStage.ofPath? path with
  | none => simp [Source.read, known] at reads
  | some stage =>
    rw [value_read files known, read] at reads
    obtain rfl := Except.ok.inj reads
    rw [value_expand] at expands
    obtain ⟨⟨text, included⟩, body, expands⟩ := bind_eq_ok.mp expands
    obtain ⟨headers, _, expands⟩ := bind_eq_ok.mp expands
    obtain rfl := Except.ok.inj expands
    have collected := included_of_body legible separate rfl body path
    rw [value_discover, read]
    change (((Include.collect files search path (flat marks)).run files).value.bind _) = _
    simp only [collected, PathSet.withSource, FileSystem.absolute_absolute home]
    rfl

/-- A template in the root directory, and an empty file that it may include. -/
def sample (text : Text) : FileSystem :=
  let file (text : Text) : Node := .file ⟨.text text, 0, false, false⟩
  ⟨[(["a.slv".toList], file text), (["b".toList], file [])], [], Path.of "/"⟩

def samplePath : Path :=
  Path.of "/a.slv"

/-- Both files of a sample, the included one first. -/
def sampleSet : PathSet :=
  ⟨[Path.of "/b", samplePath]⟩

private theorem expand_sample {text rendered : Text}
    (reads : (sample text).readText samplePath = .ok text)
    (blocks : (defineBlocks samplePath text).run.value = .ok rendered)
    (asks : Errand.ofText samplePath (settled rendered) = [.fetch samplePath "b".toList])
    (resolved : (⟨[Path.of "/"]⟩ : SearchPath).resolve? (sample text) "b".toList =
      some (Path.of "/b"))
    (included : (sample text).readText (Path.of "/b") = .ok [])
    (passed : checkLeftovers samplePath (replaceMarkers Include.nativeLine? (settled rendered)).value =
      .ok ()) :
    ∃ expanded, ((Source.read (sample text) samplePath >>= fun source =>
      source.expand (sample text) ⟨[Path.of "/"]⟩ ⟨[], []⟩).run (sample text)).value = .ok expanded ∧
        expanded.dependencies = sampleSet := by
  have here : (sample text).absolute samplePath = samplePath := by cbv
  have follows : ((Include.collect (sample text) ⟨[Path.of "/"]⟩ samplePath (settled rendered)).run
      (sample text)).value = .ok ⟨[Path.of "/b"]⟩ := by
    change Include.outcome _ _ (Errand.ofText samplePath (settled rendered)) PathSet.empty = _
    rw [asks, Include.outcome_read _ resolved rfl, included]
    exact Include.outcome_nil _ _ _
  have stage : ShaderStage.ofPath? samplePath = some .vertex := by cbv
  rw [Expanding.value_bind, value_read _ stage, reads, here]
  change ∃ expanded, ((Source.expand ⟨samplePath, text, .vertex⟩ (sample text) _ _).run
    (sample text)).value = _ ∧ _
  rw [value_expand, value_body, blocks, Except.bind, follows, Except.bind]
  dsimp only
  rw [passed]
  refine ⟨_, rfl, ?_⟩
  have same : (⟨[Path.of "/b"]⟩ : PathSet).withSource (sample text) samplePath [] = sampleSet := by
    cbv
  exact same

/-- A template with an include and a comment in a function block expands to what listing finds. -/
theorem discover_of_expand_block :
    ∃ text expanded, text = "<@func f()@>\n<! c !><@include b@>\n<@endfunc@>".toList ∧
      ((Source.read (sample text) samplePath >>= fun source =>
        source.expand (sample text) ⟨[Path.of "/"]⟩ ⟨[], []⟩).run (sample text)).value =
          .ok expanded ∧
      ((discover (sample text) ⟨[Path.of "/"]⟩ samplePath []).run (sample text)).value =
        .ok expanded.dependencies := by
  have home : (sample "<@func f()@>\n<! c !><@include b@>\n<@endfunc@>".toList).Home := by
    refine ⟨by cbv, by simp [sample], fun location within => ?_⟩
    rw [List.prefix_nil.mp within]
    rfl
  obtain ⟨expanded, expands, _⟩ := @expand_sample
    "<@func f()@>\n<! c !><@include b@>\n<@endfunc@>".toList
    "#define f() \\\n \\\n<! c !><@include b@>".toList
    (by cbv) (by decide +kernel) (by cbv) (by cbv) (by cbv) (by cbv)
  refine ⟨_, expanded, rfl, expands, ?_⟩
  have read : (sample "<@func f()@>\n<! c !><@include b@>\n<@endfunc@>".toList).readText
      samplePath = .ok (flat [.marker '@' "func f()".toList, .char '\n', .marker '!' " c ".toList,
        .marker '@' "include b".toList, .char '\n', .marker '@' "endfunc".toList]) := by cbv
  refine @discover_of_expand _ _ _ home samplePath ⟨[], []⟩ _ read ?_ ⟨?_, ?_, ?_⟩ expands
  · exact ⟨.inl rfl, by decide, by simp [Scan.opener?], .inr rfl, by decide, .inl rfl, by decide,
      by simp [Scan.opener?], .inl rfl, by decide, trivial⟩
  · exact ⟨by decide +kernel, by decide, by decide +kernel, by decide +kernel, by decide,
      by decide +kernel, trivial⟩
  all_goals
    intro kind body member
    simp only [List.mem_cons, Mark.marker.injEq, reduceCtorEq, false_or, List.not_mem_nil, or_false]
      at member
    rcases member with ⟨rfl, rfl⟩ | ⟨rfl, rfl⟩ | ⟨rfl, rfl⟩ | ⟨rfl, rfl⟩ <;> decide +kernel

/-- A comment between the characters of an opener: expanding removes it and follows the include that
comes about, listing does not. -/
theorem discover_ne_expand_opener :
    ∃ text expanded, text = "<<! c !>@include b@>\n".toList ∧
      ((Source.read (sample text) samplePath >>= fun source =>
        source.expand (sample text) ⟨[Path.of "/"]⟩ ⟨[], []⟩).run (sample text)).value =
          .ok expanded ∧
      ((discover (sample text) ⟨[Path.of "/"]⟩ samplePath []).run (sample text)).value ≠
        .ok expanded.dependencies := by
  obtain ⟨expanded, expands, dependencies⟩ := @expand_sample
    "<<! c !>@include b@>\n".toList "<<! c !>@include b@>\n".toList
    (by cbv) (by cbv) (by cbv) (by cbv) (by cbv) (by cbv)
  refine ⟨_, expanded, rfl, expands, ?_⟩
  have bare : Errand.ofText samplePath "<<! c !>@include b@>\n".toList = [] := by cbv
  have reads : (sample "<<! c !>@include b@>\n".toList).readText samplePath =
      .ok "<<! c !>@include b@>\n".toList := by cbv
  have lists : ((discover (sample "<<! c !>@include b@>\n".toList) ⟨[Path.of "/"]⟩ samplePath []).run
      (sample "<<! c !>@include b@>\n".toList)).value = .ok ⟨[samplePath]⟩ := by
    rw [value_discover, reads]
    change Except.bind (Include.outcome _ _ (Errand.ofText _ _) _) _ = _
    rw [bare, Include.outcome_nil]
    cbv
  rw [lists, dependencies]
  decide

end Source

end ShaderBuild
