import ShaderBuild.Proofs.Build.Known
import ShaderBuild.Proofs.FileSystem.Stamps
/-!
The course of a first run over stale artifacts and of a run over fresh ones, tools that do what they
are asked for, and what becomes of a template without text.
-/
namespace ShaderBuild

/-- The first argument with which the program of a stage is started. -/
def ToolStage.mark : ToolStage → Text
  | .compile => "-V110".toList
  | .optimize => "-O".toList
  | .reflect => "--reflect".toList
  | .crossCompile => "--output".toList

namespace Task

variable {task : Task} {tools : Tools} {files : FileSystem} {set : PathSet} {state after : BuildState}
  {result : Except BuildFailure Outcome}

/-- A first run over stale artifacts goes on to the toolchain, with the dependencies known. -/
theorem moves_of_stale {expansion : Expanded} (unknown : state.cache.find? task.key = none)
    (found : task.discovered state.world.files = .ok set)
    (stale : task.isStale state.world.files set = true) (wet : task.settings.dryRun = false)
    (settled : task.Settled state.world.files)
    (expands : ((task.expand state.world.files).run state.world.files).value = .ok expansion)
    (done : state.world.files.write task.artifacts.expanded state.world.now (.text expansion.text) =
      .ok files)
    (rest : Moves task tools (.run .compile)
      { state with
        world := state.world.after files
        cache := (state.cache.insert task.key set).insert task.key set } result after) :
    Moves task tools .lookup state result after := by
  have made : ∀ parent, task.outputBase.parent? = some parent →
      (state.world.files.makeDirectories parent).1 = .ok () := by
    intro parent top
    rw [FileSystem.makeDirectories_of_settled (settled parent top)]
  have prepares := @Move.prepared task tools
    { state with cache := state.cache.insert task.key set } made
  dsimp only at prepares
  rw [prepared_of_settled settled] at prepares
  exact .step (.miss unknown) (.step (.discovered found) (.step (.store set)
    (.step (.rebuild stale wet) (.step prepares (.step (.rediscovered found)
      (.step (.restore set) (.step (.expanded expands) (.step (.written done) rest))))))))

theorem moves_of_fresh {count : Nat} (known : state.cache.find? task.key = some set)
    (current : task.isStale state.world.files set = false)
    (done : Freshness.refresh state.world.now state.world.files task.artifacts.all =
      (.ok count, files)) :
    Moves task tools .lookup state (.ok .upToDate)
      { state with world := state.world.after files } :=
  .step (.hit known) (.step (.fresh current) (.step (.refreshed done) (.done _ _)))

theorem process_of_fresh {count : Nat} (noFile : state.fileLevel = none) (known : state.cache.find? task.key = some set)
    (current : task.isStale state.world.files set = false)
    (done : (Freshness.refresh state.world.now state.world.files task.artifacts.all).1 = .ok count) :
    (task.process tools state).1 = .ok .upToDate ∧
      (task.process tools state).2.quiet = { state.quiet with
        world := state.world.after
          (Freshness.refresh state.world.now state.world.files task.artifacts.all).2 } :=
  (@moves_of_fresh task tools _ set state.quiet count known current (Prod.ext done rfl)).complete
    noFile

/-- A template without text includes nothing. -/
theorem discovered_empty (read : files.readText task.source = .ok []) :
    task.discovered files =
      .ok (PathSet.empty.withSource files task.source task.headers) := by
  refine discover_eq_ok.mpr ⟨[], .empty, read, ?_, rfl⟩
  have none : Errand.ofText task.source [] = [] := by cbv
  rw [none, Include.outcome_nil]

/-- A template without text expands to what is put in front of it. -/
theorem value_expand_empty {stage : ShaderStage} {headers : List Text}
    (known : ShaderStage.ofPath? task.source = some stage)
    (read : files.readText task.source = .ok [])
    (heads : ((task.headers.mapM Expanding.readText).run files).value = .ok headers) :
    ∃ set, ((task.expand files).run files).value =
      .ok ⟨Text.joinWith ['\n'] (task.preamble.sections stage headers ++ [[]]), set⟩ := by
  have blocks : (defineBlocks (files.absolute task.source) []).run.value = .ok [] := by cbv
  have follows : ((Include.collect files task.searchPath (files.absolute task.source)
      (Source.settled [])).run files).value = .ok .empty := by
    change Include.outcome files _ (Errand.ofText _ (Source.settled [])) _ = _
    have none : Errand.ofText (files.absolute task.source) (Source.settled []) = [] := by cbv
    rw [none, Include.outcome_nil]
  unfold expand
  rw [Expanding.value_bind, Source.value_read _ known, read]
  change ∃ set, ((Source.expand ⟨_, [], stage⟩ _ _ _).run _).value = _
  rw [Source.value_expand, Source.value_body, blocks, Except.bind, follows]
  change ∃ set, Except.bind ((task.headers.mapM Expanding.readText).run files).value _ = _
  rw [heads]
  exact ⟨_, rfl⟩

theorem expand_empty {stage : ShaderStage} (known : ShaderStage.ofPath? task.source = some stage)
    (read : files.readText task.source = .ok [])
    (headers : ((task.headers.mapM Expanding.readText).run files).value.isOk = true) :
    ∃ expansion, ((task.expand files).run files).value = .ok expansion := by
  cases texts : ((task.headers.mapM Expanding.readText).run files).value with
  | error problem => simp [texts, Except.isOk, Except.toBool] at headers
  | ok heads =>
    obtain ⟨set, expands⟩ := value_expand_empty known read texts
    exact ⟨_, expands⟩

/-- For a template without text nothing is consulted but it and the dependencies. -/
theorem apart_of_empty (read : files.readText task.source = .ok [])
    (apart : ∀ path, path = task.source ∨
        path ∈ (PathSet.empty.withSource files task.source task.headers).paths →
      ∀ artifact ∈ task.artifacts.all, ∀ location, files.outlet? artifact = some location →
        files.outlet? path ≠ some location) : task.Apart files := by
  have reads : (discover files task.searchPath task.source task.headers).reads files =
      [task.source] := by
    have none : Errand.ofText task.source [] = [] := by cbv
    rw [reads_discover read, none, Include.reads_nil]
  intro set _ path consulted
  apply apart path
  cases consulted with
  | read member =>
    rw [reads] at member
    exact .inl (List.mem_singleton.mp member)
  | @tried scanned _ text name member holds asked =>
    rw [reads] at member
    obtain rfl := List.mem_singleton.mp member
    obtain rfl := Except.ok.inj (read.symm.trans holds)
    have none : Errand.ofText task.source [] = [] := by cbv
    simp [none, Errand.names] at asked
  | listed found member =>
    obtain rfl := Except.ok.inj ((discovered_empty read).symm.trans found)
    exact .inr member

theorem apart_empty (read : files.readText task.source = .ok [])
    (apart : ((task.source :: (PathSet.empty.withSource files task.source
        task.headers).paths).filterMap files.outlet?).all (fun location =>
      !(task.artifacts.all.filterMap files.outlet?).contains location) = true) :
    task.Apart files := by
  refine apart_of_empty read fun path listed artifact member location leads leadsToo => ?_
  have written := List.mem_filterMap.mpr ⟨artifact, member, leads⟩
  have free := List.all_eq_true.mp apart location
    (List.mem_filterMap.mpr ⟨path, List.mem_cons.mpr listed, leadsToo⟩)
  simp [written] at free

theorem mark_launchOf (task : Task) (stage : ToolStage) :
    (task.launchOf stage).arguments.head? = some stage.mark := by
  cases stage <;> rfl

theorem launchOf_inj {stage other : ToolStage} (same : task.launchOf stage = task.launchOf other) :
    stage = other := by
  have marks : stage.mark = other.mark := by
    simpa [mark_launchOf] using congrArg (·.arguments.head?) same
  revert marks
  cases stage <;> cases other <;> decide

/-- Tools that write what they are asked for, without text, and end with a given status. -/
def obedient (task : Task) (status : ToolStage → ExitStatus) : Tools where
  respond _ launch world :=
    match ToolStage.all.find? fun stage => task.launchOf stage = launch with
    | some stage =>
      (⟨status stage, [], []⟩, (world.write (stage.output task.artifacts) (.text [])).2)
    | none => (⟨.exited 0, [], []⟩, world)

variable {status : ToolStage → ExitStatus}

theorem respond_obedient (launches : List Launch) (stage : ToolStage) (world : World) :
    (task.obedient status).respond launches (task.launchOf stage) world =
      (⟨status stage, [], []⟩, (world.write (stage.output task.artifacts) (.text [])).2) := by
  have listed : stage ∈ ToolStage.all := by cases stage <;> simp [ToolStage.all]
  have found : (ToolStage.all.find? fun other => task.launchOf other = task.launchOf stage) =
      some stage := by
    cases search : ToolStage.all.find? fun other => task.launchOf other = task.launchOf stage with
    | none => simpa using List.find?_eq_none.mp search stage listed
    | some other =>
      have same := List.find?_some search
      rw [launchOf_inj (of_decide_eq_true same)]
  simp only [obedient, found]

theorem confined_obedient : task.Confined (task.obedient status) := by
  intro launches stage world reply after ended
  rw [respond_obedient] at ended
  obtain ⟨_, rfl⟩ := Prod.mk.inj ended
  unfold World.write World.change
  split
  · exact FileSystem.writes_of_write ‹_›
  · exact .inl rfl

theorem stamped_obedient {launches : List Launch} {launch : Launch} {world later : World}
    {reply : ToolReply} (ended : (task.obedient status).respond launches launch world =
      (reply, later)) : World.Stamped world later := by
  unfold obedient at ended
  dsimp only at ended
  split at ended
  · obtain ⟨_, rfl⟩ := Prod.mk.inj ended
    unfold World.write World.change
    split
    · exact World.stamped_write ‹_›
    · exact .refl world
  · obtain ⟨_, rfl⟩ := Prod.mk.inj ended
    exact .refl world

variable (files) in
theorem moves_of_obedient {stage : ToolStage}
    (started : (task.launchOf stage).check state.world.files = .ok ()) (done : status stage = .exited 0)
    (written : state.world.files.write (stage.output task.artifacts) state.world.now (.text []) =
      .ok files)
    (rest : Moves task (task.obedient status) (Phase.afterStage stage)
      { state with
        world := state.world.after files
        launches := state.launches ++ [task.launchOf stage] } result after) :
    Moves task (task.obedient status) (.run stage) state result after := by
  have ended := @respond_obedient task status state.launches stage state.world
  rw [World.write, World.change, written] at ended
  exact .step (.succeeded started ended done) rest

end Task

end ShaderBuild
