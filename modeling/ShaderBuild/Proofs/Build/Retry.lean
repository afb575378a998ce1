import Mathlib
import ShaderBuild.Proofs.Build.Course
/-!
Runs after one whose toolchain failed. The last artifact is made by the last stage alone: as long as
it is not newer than the dependencies, no run takes the artifacts for up to date.
-/
namespace ShaderBuild

/-- The artifacts before the last. -/
def Artifacts.intermediate (artifacts : Artifacts) : List Path :=
  [artifacts.expanded, artifacts.compiled, artifacts.optimized, artifacts.reflection]

namespace Task

variable {task : Task} {tools : Tools} {set : PathSet} {phase next : Phase}
  {state after : BuildState}

/-- The last stage leaves its output as it is when it fails. -/
def FailsClean (task : Task) (tools : Tools) : Prop :=
  ∀ launches world reply after,
    tools.respond launches (task.launchOf .crossCompile) world = (reply, after) →
      reply.status ≠ .exited 0 → after.files = world.files

/-- The dependencies are known as they are, and the last artifact, which has a file of its own, is
missing or not newer than they are. -/
structure Pending (task : Task) (set : PathSet) (files : FileSystem) (cache : DependencyStore) :
    Prop where
  settled : task.Settled files
  knows : task.Knows files cache set
  old : Freshness.filesStale files set.paths [task.artifacts.crossCompiled] = true
  own : ∀ artifact ∈ task.artifacts.intermediate, ∀ location,
    files.outlet? artifact = some location →
      files.outlet? task.artifacts.crossCompiled ≠ some location

theorem pending_again {files : FileSystem} {cache : DependencyStore} {force dryRun : Bool}
    {profile : Text} : (task.again force dryRun profile).Pending set files cache ↔
      task.Pending set files cache :=
  ⟨fun pending => ⟨pending.settled, knows_again.mp pending.knows, pending.old, pending.own⟩,
    fun pending => ⟨pending.settled, knows_again.mpr pending.knows, pending.old, pending.own⟩⟩

namespace Pending

variable {files second : FileSystem} {cache : DependencyStore}

theorem isStale (pending : task.Pending set files cache) : task.isStale files set = true := by
  rw [Task.isStale, Bool.or_eq_true]
  right
  by_contra current
  rw [Bool.not_eq_true, Freshness.filesStale_eq_false_iff] at current
  have fresh : Freshness.filesStale files set.paths [task.artifacts.crossCompiled] = false := by
    rw [Freshness.filesStale_eq_false_iff]
    refine ⟨by simp, fun result member => current.2 result ?_⟩
    obtain rfl := List.mem_singleton.mp member
    simp [Artifacts.all]
  rw [pending.old] at fresh
  cases fresh

/-- An earlier artifact may be written. -/
theorem writes {artifact : Path} (pending : task.Pending set files cache)
    (member : artifact ∈ task.artifacts.intermediate)
    (writes : FileSystem.Writes artifact files second) : task.Pending set second cache := by
  have listed : artifact ∈ task.artifacts.all := List.mem_append_left [_] member
  refine ⟨pending.settled.framed writes.framed, pending.knows.writes listed writes, ?_, ?_⟩
  · have inputs : set.paths.map second.modified? = set.paths.map files.modified? := by
      refine List.map_congr_left fun path member => ?_
      rw [FileSystem.modified?_eq, FileSystem.modified?_eq, writes.file?
        (pending.knows.apart set pending.knows.found path
          (.listed pending.knows.found member) artifact listed)]
    have output : second.modified? task.artifacts.crossCompiled =
        files.modified? task.artifacts.crossCompiled := by
      rw [FileSystem.modified?_eq, FileSystem.modified?_eq,
        writes.file? (pending.own artifact member)]
    have old := pending.old
    unfold Freshness.filesStale at old ⊢
    rwa [inputs, List.map_singleton, output]
  · intro other member location leads
    rw [← writes.framed.outlet?] at leads ⊢
    exact pending.own other member location leads

end Pending

/-- Where a run may stand that has to rebuild and has not failed or rebuilt yet, or has failed. -/
def Retrying (set : PathSet) : Phase → Prop
  | .judge known => known = set
  | .restore known => known = set
  | .discover => False
  | .store _ => False
  | .refresh => False
  | .finished result => ∃ problem, result = .error problem
  | _ => True

private theorem output_intermediate {stage : ToolStage} (other : stage ≠ .crossCompile) :
    stage.output task.artifacts ∈ task.artifacts.intermediate := by
  cases stage with
  | crossCompile => exact absurd rfl other
  | _ => simp [ToolStage.output, Artifacts.intermediate]

private theorem retrying_afterStage {stage : ToolStage} (other : stage ≠ .crossCompile) :
    Retrying set (Phase.afterStage stage) := by
  cases stage with
  | crossCompile => exact absurd rfl other
  | _ => trivial

/-- A step of a run that has to rebuild: it ends with the artifacts rebuilt or still has to. -/
theorem pending_of_move (wet : task.settings.dryRun = false) (confined : task.Confined tools)
    (clean : task.FailsClean tools) (move : Move task tools phase state next after)
    (retrying : Retrying set phase) (pending : task.Pending set state.world.files state.cache) :
    next = .finished (.ok .rebuilt) ∨
      Retrying set next ∧ task.Pending set after.world.files after.cache := by
  have prepared := prepared_of_settled pending.settled
  cases move with
  | hit known => exact .inr ⟨Option.some.inj (known.symm.trans pending.knows.known), pending⟩
  | miss unknown => simp [pending.knows.known] at unknown
  | discovered => exact retrying.elim
  | undiscovered => exact retrying.elim
  | store => exact retrying.elim
  | fresh current =>
    obtain rfl := retrying
    simp [pending.isStale] at current
  | report _ dry => simp [wet] at dry
  | rebuild => exact .inr ⟨trivial, pending⟩
  | refreshed => exact retrying.elim
  | unrefreshed => exact retrying.elim
  | prepared =>
    refine .inr ⟨trivial, ?_⟩
    dsimp only
    rwa [prepared]
  | unprepared =>
    refine .inr ⟨⟨_, rfl⟩, ?_⟩
    dsimp only
    rwa [prepared]
  | rediscovered found =>
    exact .inr ⟨Except.ok.inj (found.symm.trans pending.knows.found), pending⟩
  | unrediscovered failed => simp [pending.knows.found] at failed
  | restore =>
    obtain rfl := retrying
    exact .inr ⟨trivial, pending.settled, knows_insert pending.knows.found pending.knows.apart,
      pending.old, pending.own⟩
  | expanded => exact .inr ⟨trivial, pending⟩
  | unexpanded => exact .inr ⟨⟨_, rfl⟩, pending⟩
  | written done =>
    have writes := FileSystem.writes_of_write done
    exact .inr ⟨trivial, pending.writes (by simp [Artifacts.intermediate]) writes⟩
  | unwritten => exact .inr ⟨⟨_, rfl⟩, pending⟩
  | unstarted => exact .inr ⟨⟨_, rfl⟩, pending⟩
  | @exited _ stage reply world _ ended failed =>
    -- A last stage that fails leaves the files alone; earlier ones write intermediate artifacts.
    refine .inr ⟨⟨_, rfl⟩, ?_⟩
    by_cases last : stage = .crossCompile
    · subst last
      dsimp only
      rwa [clean _ _ _ _ ended failed]
    · exact pending.writes (output_intermediate last) (confined _ _ _ _ _ ended)
  | @succeeded _ stage reply world _ ended done =>
    by_cases last : stage = .crossCompile
    · subst last
      exact .inl rfl
    · exact .inr ⟨retrying_afterStage last,
        pending.writes (output_intermediate last) (confined _ _ _ _ _ ended)⟩

theorem pending_of_process (noFile : state.fileLevel = none) (wet : task.settings.dryRun = false)
    (confined : task.Confined tools) (clean : task.FailsClean tools)
    (pending : task.Pending set state.world.files state.cache) :
    (task.process tools state).1 = .ok .rebuilt ∨
      (∃ problem, (task.process tools state).1 = .error problem) ∧
        task.Pending set (task.process tools state).2.world.files
          (task.process tools state).2.cache := by
  have ends : Phase.finished (task.process tools state).1 = .finished (.ok .rebuilt) ∨
      Retrying set (.finished (task.process tools state).1) ∧
        task.Pending set (task.process tools state).2.quiet.world.files
          (task.process tools state).2.quiet.cache := by
    refine complete_induction (motive := fun phase state => phase = .finished (.ok .rebuilt) ∨
      Retrying set phase ∧ task.Pending set state.world.files state.cache)
      ?_ .lookup state noFile (.inr ⟨trivial, pending⟩)
    rintro phase state next after move (rfl | ⟨retrying, pending⟩)
    · cases move
    · exact pending_of_move wet confined clean move retrying pending
  rcases ends with rebuilt | still
  · exact .inl (Phase.finished.inj rebuilt)
  · exact .inr still

/-- Runs of the command one after the other among files that nothing else changes, each forced or
not, of which none ends with the artifacts rebuilt. -/
inductive Retries (task : Task) (begun : BuildState) : BuildState → Prop where
  | start : Retries task begun begun
  | again {state : BuildState} (force : Bool) (profile : Text) (tools : Tools)
      (earlier : Retries task begun state) (confined : task.Confined tools)
      (clean : task.FailsClean tools)
      (unfinished : ((task.again force false profile).process tools state).1 ≠ .ok .rebuilt) :
      Retries task begun ((task.again force false profile).process tools state).2

variable {begun : BuildState}

theorem Retries.pending (retries : task.Retries begun state) (noFile : begun.fileLevel = none)
    (pending : task.Pending set begun.world.files begun.cache) :
    state.fileLevel = none ∧ task.Pending set state.world.files state.cache := by
  induction retries with
  | start => exact ⟨noFile, pending⟩
  | @again state force profile tools earlier confined clean unfinished ih =>
    obtain ⟨quiet, pending⟩ := ih
    refine ⟨fileLevel_process quiet, ?_⟩
    have wet : (task.again force false profile).settings.dryRun = false := rfl
    rcases pending_of_process quiet wet confined clean (pending_again.mpr pending) with
      rebuilt | ⟨_, still⟩
    · exact absurd rebuilt unfinished
    · exact pending_again.mp still

/-- After a run whose toolchain failed, as long as no run has rebuilt the artifacts, none takes them
for up to date: whatever the artifacts were before and whatever the tools do, provided that the last
artifact is not newer than the dependencies then, and that no failing stage makes it. -/
theorem not_upToDate_of_stageFailed {stage : ToolStage} {launch : Launch} {failure : StageFailure}
    (noFile : state.fileLevel = none) (apart : task.Apart (task.prepared state.world.files))
    (confined : task.Confined tools)
    (failed : (task.process tools state).1 = .error (.stageFailed stage launch failure))
    (known : (task.process tools state).2.cache.find? task.key = some set)
    (old : Freshness.filesStale (task.process tools state).2.world.files set.paths
      [task.artifacts.crossCompiled] = true)
    (own : ∀ artifact ∈ task.artifacts.intermediate, ∀ location,
      (task.process tools state).2.world.files.outlet? artifact = some location →
        (task.process tools state).2.world.files.outlet? task.artifacts.crossCompiled ≠
          some location)
    (retries : task.Retries (task.process tools state).2 after) (force : Bool) (profile : Text)
    (later : Tools) (confinedToo : task.Confined later) (clean : task.FailsClean later) :
    ((task.again force false profile).process later after).1 ≠ .ok .upToDate := by
  obtain ⟨settled, found, knows⟩ := knows_of_stageFailed noFile apart confined failed
  obtain rfl : found = set := Option.some.inj (knows.known.symm.trans known)
  obtain ⟨quiet, pending⟩ :=
    retries.pending (fileLevel_process noFile) ⟨settled, knows, old, own⟩
  have wet : (task.again force false profile).settings.dryRun = false := rfl
  rcases pending_of_process quiet wet confinedToo clean (pending_again.mpr pending) with
    rebuilt | ⟨⟨problem, error⟩, _⟩
  · rw [rebuilt]
    simp
  · rw [error]
    simp

/-- A template and its headers, all empty, and five artifacts made at some time. -/
def leftFiles (made : Instant) : FileSystem where
  entries :=
    let headers := ["libraries".toList, "shaders".toList, "headers".toList]
    let empty (time : Instant) : Node := .file ⟨.text [], time, false, false⟩
    [(["a.slv".toList], empty 5), (headers.take 1, .directory), (headers.take 2, .directory),
      (headers, .directory), (headers ++ ["410".toList], .directory),
      (headers ++ ["410".toList, "header.glsl".toList], empty 5),
      (headers ++ ["mono.glsl".toList], empty 5), (["o".toList], empty made),
      (["o.spv".toList], empty made), (["o.opt.spv".toList], empty made),
      (["o.json".toList], empty made), (["o.glsl".toList], empty made)]
  workingLocation := []
  workingDirectory := Path.of "/"

def leftState (made : Instant) : BuildState :=
  ⟨⟨leftFiles made, fun tick => tick + 10, 0⟩, .empty, [], [], none⟩

/-- The template and its headers. -/
def leftSet : PathSet :=
  ⟨[Path.of "/a.slv", Path.of "/libraries/shaders/headers/410/header.glsl",
    Path.of "/libraries/shaders/headers/mono.glsl"]⟩

/-- A forced run of the command `410;mono;a.slv;o`. -/
def forcedTask : Task where
  settings := { RunSettings.ofPlaces (Path.of "/list") (Path.of "/tools") (Path.of "/build")
    (Path.of "/") with force := true }
  command := ⟨"410".toList, .mono, Path.of "a.slv", Path.of "o", []⟩

/-- Tools that do nothing, and would not be found anyway. -/
def idleTools : Tools :=
  ⟨fun _ _ world => (⟨.exited 0, [], []⟩, world)⟩

/-- The state in which the forced run leaves what it found, with its text written. -/
def failedState (made : Instant) (text : Text) : BuildState :=
  { leftState made with
    world := (leftState made).world.after
      ((leftFiles made).put ["o".toList] (.file ⟨.text text, 10, false, false⟩))
    cache := ⟨[(forcedTask.key, leftSet)]⟩ }

private theorem process_forced (made : Instant) : ∃ text,
    (forcedTask.process idleTools (leftState made)).1 =
        .error (.stageFailed .compile (forcedTask.launchOf .compile) (.notStarted .notFound)) ∧
      (forcedTask.process idleTools (leftState made)).2.quiet = failedState made text := by
  have read : (leftFiles made).readText forcedTask.source = .ok [] := by cbv
  have found : forcedTask.discovered (leftFiles made) = .ok leftSet := by
    rw [discovered_empty read]
    cbv
  have stage : ShaderStage.ofPath? forcedTask.source = some .vertex := by cbv
  obtain ⟨expansion, expands⟩ := expand_empty stage read (by cbv)
  have settled : forcedTask.Settled (leftFiles made) := by
    intro parent top
    have root : forcedTask.outputBase.parent? = some (Path.of "/") := by cbv
    obtain rfl := Option.some.inj (root.symm.trans top)
    exact .inr (.inl (by cbv))
  have leads : (leftFiles made).outlet? forcedTask.artifacts.expanded = some ["o".toList] := by cbv
  have there : (leftFiles made).fileAt? ["o".toList] =
      some ⟨.text [], made, false, false⟩ := by cbv
  have written : (leftFiles made).write forcedTask.artifacts.expanded (leftState made).world.now
      (.text expansion.text) = .ok (failedState made expansion.text).world.files :=
    FileSystem.write_eq_ok.mpr ⟨_, leads, by rw [there]; rfl⟩
  have refused : (forcedTask.launchOf .compile).check
      (failedState made expansion.text).world.files = .error .notFound := by cbv
  have known : (DependencyStore.empty.insert forcedTask.key leftSet).insert forcedTask.key leftSet =
      ⟨[(forcedTask.key, leftSet)]⟩ := by cbv
  refine ⟨expansion.text, @Moves.complete _ _ .lookup (leftState made) _ _
    (moves_of_stale rfl found rfl rfl settled expands written ?_) rfl⟩
  change Moves _ _ _ { failedState made expansion.text with
    cache := (DependencyStore.empty.insert forcedTask.key leftSet).insert forcedTask.key leftSet } _ _
  rw [known]
  exact .step (.unstarted refused) (.done _ _)

theorem confined_idle (task : Task) : task.Confined idleTools := by
  intro launches stage world reply after ended
  obtain ⟨_, rfl⟩ := Prod.mk.inj ended
  exact .inl rfl

private theorem clean_idle : forcedTask.FailsClean idleTools := by
  intro launches world reply after ended failed
  obtain ⟨rfl, _⟩ := Prod.mk.inj ended
  exact absurd rfl failed

/-- A run that fails among artifacts older than the template does not make them up to date. -/
theorem not_upToDate_of_stageFailed_old :
    ((forcedTask.again false false []).process idleTools
      (forcedTask.process idleTools (leftState 3)).2).1 ≠ .ok .upToDate := by
  obtain ⟨text, failed, left⟩ := process_forced 3
  have files : (forcedTask.process idleTools (leftState 3)).2.world.files =
      (failedState 3 text).world.files := congrArg (·.world.files) left
  have known : (forcedTask.process idleTools (leftState 3)).2.cache.find? forcedTask.key =
      some leftSet := by
    rw [show (forcedTask.process idleTools (leftState 3)).2.cache = (failedState 3 text).cache
      from congrArg (·.cache) left]
    cbv
  have old : Freshness.filesStale (failedState 3 text).world.files leftSet.paths
      [forcedTask.artifacts.crossCompiled] = true := by cbv
  have prepared : forcedTask.prepared (leftFiles 3) = leftFiles 3 := by cbv
  have apart : forcedTask.Apart (forcedTask.prepared (leftFiles 3)) := by
    rw [prepared]
    exact apart_empty (by cbv) (by cbv)
  have own : (failedState 3 text).world.files.outlet? forcedTask.artifacts.crossCompiled =
      some ["o.glsl".toList] := by cbv
  have others : forcedTask.artifacts.intermediate.map (failedState 3 text).world.files.outlet? =
      [some ["o".toList], some ["o.spv".toList], some ["o.opt.spv".toList],
        some ["o.json".toList]] := by cbv
  rw [← files] at old
  refine not_upToDate_of_stageFailed rfl apart (confined_idle _) failed known old ?_ .start
    false [] idleTools (confined_idle _) clean_idle
  rw [files]
  intro artifact member location leads same
  obtain rfl := Option.some.inj (own.symm.trans same)
  have listed := List.mem_map.mpr ⟨artifact, member, leads⟩
  rw [others] at listed
  revert listed
  decide

/-- A forced run may fail among artifacts that are newer than the template: the next run takes
them for up to date, though no run has rebuilt them. -/
theorem upToDate_of_stageFailed_new :
    forcedTask.Confined idleTools ∧
    (∃ stage launch failure, (forcedTask.process idleTools (leftState 7)).1 =
      .error (.stageFailed stage launch failure)) ∧
    ((forcedTask.again false false []).process idleTools
      (forcedTask.process idleTools (leftState 7)).2).1 = .ok .upToDate := by
  obtain ⟨text, failed, left⟩ := process_forced 7
  refine ⟨confined_idle _, ⟨_, _, _, failed⟩, ?_⟩
  have known : (failedState 7 text).cache.find? forcedTask.key = some leftSet := by cbv
  have current : (forcedTask.again false false []).isStale (failedState 7 text).world.files
      leftSet = false := by cbv
  have done : ∃ count, (Freshness.refresh (failedState 7 text).world.now
      (failedState 7 text).world.files forcedTask.artifacts.all).1 = .ok count := ⟨5, by cbv⟩
  obtain ⟨count, done⟩ := done
  have moves := @moves_of_fresh (forcedTask.again false false []) idleTools _ leftSet
    (failedState 7 text) count known current (Prod.ext done rfl)
  rw [← left] at moves
  exact (moves.complete (fileLevel_process rfl)).1

end Task

end ShaderBuild
