import ShaderBuild.Proofs.Build.Footprint
import ShaderBuild.Proofs.Build.Retry
import ShaderBuild.Proofs.Build.UpToDate
/-!
The toolchain in a run: its stages in their order, up to the first that fails, and nothing changed of
what belongs to the stages that are not started.
-/
namespace ShaderBuild

namespace Task

variable {task : Task} {tools : Tools} {begun : BuildState}

/-- A run writes nothing to a location: neither the path of the expanded text leads there nor the output
of a stage that was started, and the file there does not keep the log. -/
structure Spared (task : Task) (invoked : List (ToolStage × ToolReply)) (before after : FileSystem)
    (location : Location) : Prop where
  unwritten : after.outlet? task.artifacts.expanded ≠ some location
  unasked : ∀ entry ∈ invoked, after.outlet? (entry.1.output task.artifacts) ≠ some location
  plain : ∀ file, before.fileAt? location = some file → file.keepsLog = false

/-- How a run begins, starts stages and ends. -/
structure Orderly (task : Task) (tools : Tools) (begun : BuildState)
    (invoked : List (ToolStage × ToolReply)) (result : Except BuildFailure Outcome)
    (after : BuildState) : Prop where
  /-- The stages are started in their order, each at most once. -/
  order : invoked.map Prod.fst <+: ToolStage.all
  launches : after.launches = begun.launches ++ invoked.map fun entry => task.launchOf entry.1
  /-- Before the first stage is started the dependencies are found afresh and stored, and the expanded
  text is written. -/
  ready : invoked ≠ [] → ∃ ready, Comes task tools begun (.run .compile) ready ∧
    ready.launches = begun.launches ∧ task.Renewed tools begun ready ∧
    ∃ text, task.ExpandsTo tools begun text ∧
      ready.world.files.readText task.artifacts.expanded = .ok text
  /-- A stage is started only when all before it have succeeded. -/
  earlier : ∀ entry ∈ invoked.dropLast, entry.2.status = .exited 0
  rebuilt : result = .ok .rebuilt ↔
    invoked.map Prod.fst = ToolStage.all ∧ ∀ entry ∈ invoked, entry.2.status = .exited 0
  ended : invoked ≠ [] → result = .ok .rebuilt ∨
    ∃ stage failure, result = .error (.stageFailed stage (task.launchOf stage) failure)
  failed : ∀ stage launch failure, result = .error (.stageFailed stage launch failure) →
    launch = task.launchOf stage ∧
      FirstFailed task tools begun ToolStage.all invoked stage failure
  /-- The output of a stage that is not started is where it was. -/
  leads : task.Modest tools → ∀ stage, stage ∉ invoked.map Prod.fst → ∀ location,
    begun.world.files.outlet? (stage.output task.artifacts) = some location →
      (begun.world.files.fileAt? location).isSome →
        after.world.files.outlet? (stage.output task.artifacts) = some location
  /-- It is as it was, or has another time if the artifacts were up to date. -/
  retained : task.Modest tools → ∀ stage, stage ∉ invoked.map Prod.fst → ∀ location,
    after.world.files.outlet? (stage.output task.artifacts) = some location →
      task.Spared invoked begun.world.files after.world.files location →
        Retained result (begun.world.files.fileAt? location) (after.world.files.fileAt? location)

/-- Every run starts the stages in their order, up to the first that fails, once the expanded text is
written; it ends as this stage tells, and nothing is changed of what belongs to the others. -/
theorem orderly_process (task : Task) (tools : Tools) (begun : BuildState) :
    task.Orderly tools begun (task.invocations tools .lookup begun) (task.process tools begun).1
      (task.process tools begun).2 := by
  have launches := task.launches_complete tools .lookup begun
  have leads : task.Modest tools → ∀ stage,
      stage ∉ (task.invocations tools .lookup begun).map Prod.fst → ∀ location,
      begun.world.files.outlet? (stage.output task.artifacts) = some location →
        (begun.world.files.fileAt? location).isSome →
          (task.process tools begun).2.world.files.outlet? (stage.output task.artifacts) =
            some location :=
    fun modest _ _ _ there present => outlet?_complete modest there present
  have retained : task.Modest tools → ∀ stage,
      stage ∉ (task.invocations tools .lookup begun).map Prod.fst → ∀ location,
      (task.process tools begun).2.world.files.outlet? (stage.output task.artifacts) =
        some location →
      task.Spared (task.invocations tools .lookup begun) begun.world.files
        (task.process tools begun).2.world.files location →
      Retained (task.process tools begun).1 (begun.world.files.fileAt? location)
        ((task.process tools begun).2.world.files.fileAt? location) :=
    fun modest _ _ _ _ spared =>
      retained_complete modest spared.plain spared.unwritten spared.unasked
  rcases approach (.start : Comes task tools begun .lookup begun) trivial with
    ⟨none, early⟩ | ⟨ready, comes, started, whole⟩
  · change (Phase.finished (task.process tools begun).1).Early at early
    obtain ⟨rebuilt, failed⟩ := early
    rw [none] at launches leads retained ⊢
    exact {
      order := List.nil_prefix
      launches := launches
      ready := nofun
      earlier := nofun
      rebuilt := ⟨fun same => absurd same rebuilt, fun same => nomatch same.1⟩
      ended := nofun
      failed := fun stage launch failure same => absurd same (failed stage launch failure)
      leads := leads
      retained := retained }
  · have runs := runs_complete .compile ready comes
    have same : (task.complete tools (.run .compile) ready).1 = (task.process tools begun).1 :=
      congrArg Prod.fst whole.symm
    rw [same, ← started] at runs
    have onward := task.launches_complete tools (.run .compile) ready
    rw [← whole, launches, ← started, List.append_left_inj] at onward
    obtain ⟨renewed, text, expands, written⟩ := readying_of_comes comes
    refine {
      order := runs.isPrefix
      launches := launches
      ready := fun _ => ⟨ready, comes, onward.symm, renewed, text, expands, written⟩
      earlier := runs.succeeded_earlier
      rebuilt := runs.rebuilt_iff
      ended := fun _ => runs.rebuilt_or_failed.imp_right ?_
      failed := fun stage launch failure ends => ?_
      leads := leads
      retained := retained }
    · rintro ⟨stage, failure, ends, _⟩
      exact ⟨stage, failure, ends⟩
    · rcases runs.rebuilt_or_failed with rebuilt | ⟨own, problem, other, first⟩
      · cases ends.symm.trans rebuilt
      · cases ends.symm.trans other
        exact ⟨rfl, first⟩

theorem map_fst_invocations {stages : List ToolStage}
    (launches : (task.process tools begun).2.launches =
      begun.launches ++ stages.map task.launchOf) :
    (task.invocations tools .lookup begun).map Prod.fst = stages := by
  have injective : Function.Injective task.launchOf := fun _ _ same => launchOf_inj same
  have whole := task.launches_complete tools .lookup begun
  rw [← process, launches, List.append_right_inj] at whole
  refine List.map_injective_iff.mpr injective ?_
  rw [whole, List.map_map]
  rfl

/-- Programs that fail and change nothing. -/
def failingTools : Tools :=
  ⟨fun _ _ world => (⟨.exited 1, [], []⟩, world)⟩

theorem modest_failing (task : Task) : task.Modest failingTools := by
  intro launches stage world reply after ended
  obtain ⟨_, rfl⟩ := Prod.mk.inj ended
  exact ⟨.refl _, fun _ _ => rfl⟩

/-- A template, its headers and the tools, an output of the last stage that was made before, and a node
where the expanded text belongs. -/
def olderFiles (node : Node) : FileSystem :=
  ((siteFiles []).put ["o".toList] node).put ["o.glsl".toList]
    (.file ⟨.binary [0], 5, false, false⟩)

def olderState (node : Node) : BuildState :=
  { siteState with world := ⟨olderFiles node, siteState.world.clock, 0⟩ }

/-- The command `410;mono;aa.slv;o`. -/
def olderTask : Task :=
  siteTask (Path.of "aa.slv") []

private theorem isStale_older (node : Node) (set : PathSet) :
    olderTask.isStale (olderFiles node) set = true := by
  have missing : (olderFiles node).file? olderTask.artifacts.compiled = none := by cbv
  by_contra fresh
  have current : Freshness.filesStale (olderFiles node) set.paths olderTask.artifacts.all = false :=
    Bool.not_eq_true _ ▸ fresh
  obtain ⟨_, each⟩ := Freshness.filesStale_eq_false_iff.mp current
  obtain ⟨made, there, _⟩ := each _ (output_mem .compile olderTask.artifacts)
  cases missing.symm.trans there

private theorem process_older {node : Node} {location : Location}
    (leads : (olderFiles node).outlet? olderTask.artifacts.expanded = some location)
    (started : ∀ file, (olderTask.launchOf .compile).check
      ((olderFiles node).put location (.file file)) = .ok ()) :
    ∃ file text, file.contents = .text text ∧
      (olderTask.process failingTools (olderState node)).2.world.files =
        (olderFiles node).put location (.file file) ∧
      (olderTask.invocations failingTools .lookup (olderState node)).map Prod.fst = [.compile] := by
  have read : (olderFiles node).readText olderTask.source = .ok [] := by cbv
  obtain ⟨expansion, expands⟩ := expand_empty known_site read (by cbv)
  have settled : olderTask.Settled (olderFiles node) := by
    intro parent top
    have root : olderTask.outputBase.parent? = some (Path.of "..") := by cbv
    obtain rfl := Option.some.inj (root.symm.trans top)
    exact .inr (.inr (by cbv))
  obtain ⟨file, holds, written⟩ : ∃ file : File, file.contents = .text expansion.text ∧
      (olderFiles node).write olderTask.artifacts.expanded (olderState node).world.now
        (.text expansion.text) = .ok ((olderFiles node).put location (.file file)) :=
    ⟨_, rfl, FileSystem.write_eq_ok.mpr ⟨location, leads, rfl⟩⟩
  have moves := @moves_of_stale olderTask failingTools _ _ (olderState node) _ _ _ rfl
    (discovered_empty read) (isStale_older node _) rfl settled expands written
    (.step (.exited (started file) rfl (by simp)) (.done _ _))
  obtain ⟨_, left⟩ := @Moves.complete _ _ .lookup (olderState node) _ _ moves rfl
  refine ⟨file, expansion.text, holds, congrArg (·.world.files) left, map_fst_invocations ?_⟩
  exact congrArg (·.launches) left

/-- A text stands where the expanded text belongs. -/
def plainState : BuildState :=
  olderState (.file ⟨.text [], 5, false, false⟩)

/-- The first stage fails: the output of the last one is where it was, and as it was. -/
theorem orderly_process_older :
    olderTask.Modest failingTools ∧
      ToolStage.crossCompile ∉
        (olderTask.invocations failingTools .lookup plainState).map Prod.fst ∧
      (olderTask.process failingTools plainState).2.world.files.file?
        olderTask.artifacts.crossCompiled = some ⟨.binary [0], 5, false, false⟩ := by
  have orderly := orderly_process olderTask failingTools plainState
  have own : plainState.world.files.outlet? olderTask.artifacts.crossCompiled =
      some ["o.glsl".toList] := by cbv
  have old : plainState.world.files.fileAt? ["o.glsl".toList] =
      some ⟨.binary [0], 5, false, false⟩ := by cbv
  obtain ⟨file, text, _, files, started⟩ := @process_older (.file ⟨.text [], 5, false, false⟩)
    ["o".toList] (by cbv) fun file => by cbv
  change (olderTask.process failingTools plainState).2.world.files = _ at files
  change (olderTask.invocations failingTools .lookup plainState).map Prod.fst = _ at started
  have absent : ToolStage.crossCompile ∉
      (olderTask.invocations failingTools .lookup plainState).map Prod.fst := by
    rw [started]
    decide
  have leads := orderly.leads (modest_failing _) .crossCompile absent _ own (by rw [old]; rfl)
  have spared : olderTask.Spared (olderTask.invocations failingTools .lookup plainState)
      plainState.world.files (olderTask.process failingTools plainState).2.world.files
      ["o.glsl".toList] := by
    refine ⟨?_, fun entry member => ?_, fun file there => ?_⟩
    · have base : ((olderFiles (.file ⟨.text [], 5, false, false⟩)).put ["o".toList]
          (.file file)).outlet? olderTask.artifacts.expanded = some ["o".toList] := by cbv
      rw [files, base]
      decide
    · have output : ((olderFiles (.file ⟨.text [], 5, false, false⟩)).put ["o".toList]
          (.file file)).outlet? olderTask.artifacts.compiled = some ["o.spv".toList] := by cbv
      have first : entry.1 ∈ [ToolStage.compile] := started ▸ List.mem_map_of_mem member
      rw [List.mem_singleton.mp first, files, ToolStage.output, output]
      decide
    · rw [← Option.some.inj (old.symm.trans there)]
  refine ⟨modest_failing _, absent, (FileSystem.file?_of_outlet? leads).trans ?_⟩
  rcases orderly.retained (modest_failing _) .crossCompile absent _ leads spared with
    same | ⟨current, _⟩
  · exact same.trans old
  · have some : olderTask.invocations failingTools .lookup plainState ≠ [] := fun none => by
      simp [none] at started
    rcases orderly.ended some with rebuilt | ⟨stage, failure, failed⟩
    · cases current.symm.trans rebuilt
    · cases current.symm.trans failed

/-- A link to the output of the last stage stands where the expanded text belongs. -/
def linkedState : BuildState :=
  olderState (.link (Path.of "o.glsl"))

private theorem overwritten_linked :
    ToolStage.crossCompile ∉
        (olderTask.invocations failingTools .lookup linkedState).map Prod.fst ∧
      (linkedState.world.files.file? olderTask.artifacts.crossCompiled).map File.contents =
        some (.binary [0]) ∧
      ((olderTask.process failingTools linkedState).2.world.files.file?
        olderTask.artifacts.crossCompiled).map File.contents ≠ some (.binary [0]) := by
  have leads : linkedState.world.files.outlet? olderTask.artifacts.expanded =
      some ["o.glsl".toList] := by cbv
  have own : linkedState.world.files.outlet? olderTask.artifacts.crossCompiled =
      some ["o.glsl".toList] := by cbv
  obtain ⟨file, text, holds, files, started⟩ := process_older leads fun file => by cbv
  change (olderTask.process failingTools linkedState).2.world.files =
    linkedState.world.files.put _ _ at files
  change (olderTask.invocations failingTools .lookup linkedState).map Prod.fst = _ at started
  rw [started, files, FileSystem.file?_put (FileSystem.free_of_outlet? leads), if_pos own,
    Option.map_some, holds]
  exact ⟨by decide, by cbv, by simp⟩

/-- Artifacts that are newer than the known dependencies. -/
def freshState : BuildState :=
  { leftState 7 with cache := ⟨[(forcedTask.key, leftSet)]⟩ }

private theorem refreshed_fresh :
    ToolStage.crossCompile ∉ ((forcedTask.again false false []).invocations failingTools .lookup
        freshState).map Prod.fst ∧
      (freshState.world.files.file? forcedTask.artifacts.crossCompiled).map File.modified = some 7 ∧
      (((forcedTask.again false false []).process failingTools freshState).2.world.files.file?
        forcedTask.artifacts.crossCompiled).map File.modified = some 10 := by
  have known : freshState.cache.find? forcedTask.key = some leftSet := by cbv
  have current : (forcedTask.again false false []).isStale freshState.world.files leftSet =
      false := by cbv
  obtain ⟨count, done⟩ : ∃ count, (Freshness.refresh freshState.world.now freshState.world.files
      forcedTask.artifacts.all).1 = .ok count := ⟨5, by cbv⟩
  obtain ⟨_, left⟩ := @process_of_fresh (forcedTask.again false false []) failingTools leftSet
    freshState count rfl known current done
  have started : ((forcedTask.again false false []).invocations failingTools .lookup
      freshState).map Prod.fst = [] := map_fst_invocations (congrArg (·.launches) left)
  have files : ((forcedTask.again false false []).process failingTools freshState).2.world.files =
      (Freshness.refresh freshState.world.now freshState.world.files
        forcedTask.artifacts.all).2 := congrArg (·.world.files) left
  rw [started, files]
  exact ⟨by decide, by cbv, by cbv⟩

/-- The output of a stage that is not started may change though no program changes anything: the expanded
text is written through a link, and artifacts that are up to date are given the present time. -/
theorem changed_of_link_or_refresh :
    (∀ task : Task, task.Modest failingTools) ∧
    (ToolStage.crossCompile ∉
        (olderTask.invocations failingTools .lookup linkedState).map Prod.fst ∧
      (linkedState.world.files.file? olderTask.artifacts.crossCompiled).map File.contents =
        some (.binary [0]) ∧
      ((olderTask.process failingTools linkedState).2.world.files.file?
        olderTask.artifacts.crossCompiled).map File.contents ≠ some (.binary [0])) ∧
    (ToolStage.crossCompile ∉ ((forcedTask.again false false []).invocations failingTools .lookup
        freshState).map Prod.fst ∧
      (freshState.world.files.file? forcedTask.artifacts.crossCompiled).map File.modified = some 7 ∧
      (((forcedTask.again false false []).process failingTools freshState).2.world.files.file?
        forcedTask.artifacts.crossCompiled).map File.modified = some 10) :=
  ⟨modest_failing, overwritten_linked, refreshed_fresh⟩

end Task

end ShaderBuild
