import ShaderBuild.Proofs.Build.Steps
/-!
Which stages a run starts, and what their programs answer. The stages run one after the other until
one fails; before the first the dependencies are found afresh and the expanded text is written.
-/
namespace ShaderBuild

namespace Task

variable {task : Task} {tools : Tools} {phase : Phase} {state begun : BuildState} {stage : ToolStage}
  {invoked : List (ToolStage × ToolReply)} {result : Except BuildFailure Outcome}

/-! ### What a run starts -/

/-- The state in which the program of a stage is started: the start was logged. -/
def announced (task : Task) (stage : ToolStage) (state : BuildState) : BuildState :=
  state.note .debug .toolchain s!"Running {stage.name}: {(task.launchOf stage).line}"

/-- What the program of a stage answers, if it can be started. -/
def reply? (task : Task) (tools : Tools) (stage : ToolStage) (state : BuildState) :
    Option ToolReply :=
  match (task.launchOf stage).check (task.announced stage state).world.files with
  | .error _ => none
  | .ok () =>
    some (tools.respond state.launches (task.launchOf stage) (task.announced stage state).world).1

/-- The stage that the next step starts, with the answer of its program. -/
def invoked? (task : Task) (tools : Tools) :
    Phase → BuildState → Option (ToolStage × ToolReply)
  | .run stage, state => (task.reply? tools stage state).map fun reply => (stage, reply)
  | _, _ => none

/-- The stages that are started from a phase on, in their order, with the answers of their programs. -/
def invocations (task : Task) (tools : Tools) (phase : Phase) (state : BuildState) :
    List (ToolStage × ToolReply) :=
  match _running : phase.result? with
  | some _ => []
  | none =>
    let next := task.step tools phase state
    (task.invoked? tools phase state).toList ++ task.invocations tools next.1 next.2
  termination_by phase.rank
  decreasing_by exact rank_step task tools phase state _running

theorem invocations_finished (result : Except BuildFailure Outcome) (state : BuildState) :
    task.invocations tools (.finished result) state = [] := by
  rw [invocations]
  rfl

theorem invocations_running (running : phase.result? = none) (state : BuildState) :
    task.invocations tools phase state = (task.invoked? tools phase state).toList ++
      task.invocations tools (task.step tools phase state).1 (task.step tools phase state).2 := by
  rw [invocations]
  split
  · simp_all
  · rfl

/-- What a step of the toolchain does, with the answer of the program if it was started. -/
inductive Attempt (task : Task) (tools : Tools) (stage : ToolStage) (state : BuildState) :
    Option ToolReply → Phase × BuildState → Prop where
  | unstarted {problem : FileError}
      (refused : (task.launchOf stage).check (task.announced stage state).world.files =
        .error problem) :
      Attempt task tools stage state none
        (.finished (.error (.stageFailed stage (task.launchOf stage) (.notStarted problem))),
          task.announced stage state)
  | exited {reply : ToolReply} {world : World}
      (ended : tools.respond state.launches (task.launchOf stage) (task.announced stage state).world =
        (reply, world))
      (failed : reply.status ≠ .exited 0) :
      Attempt task tools stage state (some reply)
        (.finished (.error (.stageFailed stage (task.launchOf stage)
          (.ended reply.status reply.report))),
          { task.announced stage state with
            world := world, launches := state.launches ++ [task.launchOf stage] })
  | succeeded {reply : ToolReply} {world : World}
      (ended : tools.respond state.launches (task.launchOf stage) (task.announced stage state).world =
        (reply, world))
      (done : reply.status = .exited 0) :
      Attempt task tools stage state (some reply)
        (Phase.afterStage stage,
          { task.announced stage state with
            world := world, launches := state.launches ++ [task.launchOf stage] })

theorem attempt_step (task : Task) (tools : Tools) (stage : ToolStage) (state : BuildState) :
    task.Attempt tools stage state (task.reply? tools stage state)
      (task.step tools (.run stage) state) := by
  change task.Attempt tools stage state _ (Phase.next (fun _ => Phase.afterStage stage)
    (state.launch tools stage (task.launchOf stage)))
  unfold reply? BuildState.launch
  change task.Attempt tools stage state _ (Phase.next _ (match (task.launchOf stage).check
    (task.announced stage state).world.files with | .error _ => _ | .ok () => _))
  cases started : (task.launchOf stage).check (task.announced stage state).world.files with
  | error problem => exact .unstarted started
  | ok =>
    dsimp only
    change task.Attempt tools stage state _ (Phase.next _ (if (tools.respond state.launches
      (task.launchOf stage) (task.announced stage state).world).1.status = .exited 0 then _ else _))
    split
    · exact .succeeded rfl ‹_›
    · exact .exited rfl ‹_›

theorem invoked?_eq_none (other : ∀ stage, phase ≠ .run stage) (state : BuildState) :
    task.invoked? tools phase state = none := by
  cases phase with
  | run stage => exact absurd rfl (other stage)
  | _ => rfl

theorem launches_step (task : Task) (tools : Tools) (phase : Phase) (state : BuildState) :
    (task.step tools phase state).2.launches = state.launches ++
      (task.invoked? tools phase state).toList.map fun entry => task.launchOf entry.1 := by
  by_cases running : ∃ stage, phase = .run stage
  · obtain ⟨stage, rfl⟩ := running
    have attempt := task.attempt_step tools stage state
    change _ = _ ++ ((task.reply? tools stage state).map _).toList.map _
    generalize task.reply? tools stage state = reply at attempt
    generalize task.step tools (.run stage) state = next at attempt
    cases attempt with
    | unstarted => exact (List.append_nil _).symm
    | exited => rfl
    | succeeded => rfl
  · have other : ∀ stage, phase ≠ .run stage := fun stage same => running ⟨stage, same⟩
    rw [invoked?_eq_none other, Option.toList_none, List.map_nil, List.append_nil]
    by_cases reads : phase.Reads
    · exact (annotated_step reads).launches
    · cases phase with
      | refresh => exact (task.step_refresh tools state).2.launches
      | prepare => rw [step_prepare]
      | write text =>
        obtain ⟨world, same, _⟩ := task.step_write tools text state
        rw [same]
      | run stage => exact absurd rfl (other stage)
      | _ => exact absurd trivial reads

theorem launches_complete (task : Task) (tools : Tools) (phase : Phase) (state : BuildState) :
    (task.complete tools phase state).2.launches = state.launches ++
      (task.invocations tools phase state).map fun entry => task.launchOf entry.1 := by
  induction phase, state using step_induction task tools with
  | finished result state =>
    rw [complete_finished, invocations_finished, List.map_nil, List.append_nil]
  | running phase state running ih =>
    rw [complete_running running, invocations_running running, List.map_append, ← List.append_assoc,
      ← launches_step]
    exact ih

/-! ### The toolchain -/

/-- The stages from a phase on. -/
def Phase.stages : Phase → List ToolStage
  | .run .compile => ToolStage.all
  | .run .optimize => [.optimize, .reflect, .crossCompile]
  | .run .reflect => [.reflect, .crossCompile]
  | .run .crossCompile => [.crossCompile]
  | _ => []

theorem stages_run (stage : ToolStage) :
    (Phase.run stage).stages = stage :: (Phase.afterStage stage).stages := by
  cases stage <;> rfl

/-- Stages are run one after the other until one fails: its program cannot be started, or does not end
with status zero. -/
inductive Runs (task : Task) (tools : Tools) (begun : BuildState) :
    Phase → List (ToolStage × ToolReply) → Except BuildFailure Outcome → Prop where
  | rebuilt : Runs task tools begun (.finished (.ok .rebuilt)) [] (.ok .rebuilt)
  | unstarted {stage : ToolStage} {state : BuildState} {problem : FileError}
      (comes : Comes task tools begun (.run stage) state)
      (refused : (task.launchOf stage).check (task.announced stage state).world.files =
        .error problem) :
      Runs task tools begun (.run stage) []
        (.error (.stageFailed stage (task.launchOf stage) (.notStarted problem)))
  | exited {stage : ToolStage} {reply : ToolReply} (failed : reply.status ≠ .exited 0) :
      Runs task tools begun (.run stage) [(stage, reply)]
        (.error (.stageFailed stage (task.launchOf stage) (.ended reply.status reply.report)))
  | succeeded {stage : ToolStage} {reply : ToolReply} {invoked : List (ToolStage × ToolReply)}
      {result : Except BuildFailure Outcome} (done : reply.status = .exited 0)
      (rest : Runs task tools begun (Phase.afterStage stage) invoked result) :
      Runs task tools begun (.run stage) ((stage, reply) :: invoked) result

private theorem runs_of_later
    (later : ∀ state, Comes task tools begun (Phase.afterStage stage) state →
      Runs task tools begun (Phase.afterStage stage)
        (task.invocations tools (Phase.afterStage stage) state)
        (task.complete tools (Phase.afterStage stage) state).1)
    (state : BuildState) (comes : Comes task tools begun (.run stage) state) :
    Runs task tools begun (.run stage) (task.invocations tools (.run stage) state)
      (task.complete tools (.run stage) state).1 := by
  have onward := comes.step rfl
  have attempt := task.attempt_step tools stage state
  rw [invocations_running rfl, complete_running rfl]
  change Runs task tools begun _ (((task.reply? tools stage state).map _).toList ++ _) _
  generalize task.reply? tools stage state = reply at attempt
  generalize task.step tools (.run stage) state = next at attempt onward
  cases attempt with
  | unstarted refused =>
    rw [invocations_finished, complete_finished]
    exact .unstarted comes refused
  | exited ended failed =>
    rw [invocations_finished, complete_finished]
    exact .exited failed
  | succeeded ended done => exact .succeeded done (later _ onward)

theorem runs_complete (stage : ToolStage) (state : BuildState)
    (comes : Comes task tools begun (.run stage) state) :
    Runs task tools begun (.run stage) (task.invocations tools (.run stage) state)
      (task.complete tools (.run stage) state).1 := by
  have done : ∀ state, Comes task tools begun (Phase.afterStage .crossCompile) state →
      Runs task tools begun (Phase.afterStage .crossCompile)
        (task.invocations tools (Phase.afterStage .crossCompile) state)
        (task.complete tools (Phase.afterStage .crossCompile) state).1 := by
    intro state _
    change Runs _ _ _ (.finished _) (task.invocations tools (.finished _) _)
      (task.complete tools (.finished _) _).1
    rw [invocations_finished, complete_finished]
    exact .rebuilt
  have crossCompile := runs_of_later done
  have reflect := @runs_of_later _ _ _ .reflect crossCompile
  have optimize := @runs_of_later _ _ _ .optimize reflect
  have compile := @runs_of_later _ _ _ .compile optimize
  cases stage with
  | compile => exact compile state comes
  | optimize => exact optimize state comes
  | reflect => exact reflect state comes
  | crossCompile => exact crossCompile state comes

/-- The first stage that failed: its program could not be started, or did not end with status zero, and
those of all stages before it did. -/
inductive FirstFailed (task : Task) (tools : Tools) (begun : BuildState) (stages : List ToolStage)
    (invoked : List (ToolStage × ToolReply)) (stage : ToolStage) : StageFailure → Prop where
  | unstarted {state : BuildState} {problem : FileError}
      (succeeded : ∀ entry ∈ invoked, entry.2.status = .exited 0)
      (next : invoked.map Prod.fst ++ [stage] <+: stages)
      (comes : Comes task tools begun (.run stage) state)
      (refused : (task.launchOf stage).check (task.announced stage state).world.files =
        .error problem) :
      FirstFailed task tools begun stages invoked stage (.notStarted problem)
  | exited {earlier : List (ToolStage × ToolReply)} {reply : ToolReply}
      (whole : invoked = earlier ++ [(stage, reply)])
      (succeeded : ∀ entry ∈ earlier, entry.2.status = .exited 0) (failed : reply.status ≠ .exited 0) :
      FirstFailed task tools begun stages invoked stage (.ended reply.status reply.report)

namespace Runs

variable (runs : Runs task tools begun phase invoked result)
include runs

/-- The stages run in their order. -/
theorem isPrefix : invoked.map Prod.fst <+: phase.stages := by
  induction runs with
  | rebuilt => exact List.nil_prefix
  | unstarted => exact List.nil_prefix
  | exited =>
    rw [stages_run]
    exact List.prefix_append [_] _
  | succeeded done rest ih =>
    rw [stages_run, List.map_cons, List.prefix_cons_inj]
    exact ih

theorem succeeded_earlier : ∀ entry ∈ invoked.dropLast, entry.2.status = .exited 0 := by
  induction runs with
  | rebuilt => nofun
  | unstarted => nofun
  | exited => nofun
  | @succeeded stage reply invoked result done rest ih =>
    cases invoked with
    | nil => nofun
    | cons next invoked =>
      rw [List.dropLast_cons_cons]
      exact List.forall_mem_cons.mpr ⟨done, ih⟩

theorem rebuilt_iff : result = .ok .rebuilt ↔
    invoked.map Prod.fst = phase.stages ∧ ∀ entry ∈ invoked, entry.2.status = .exited 0 := by
  induction runs with
  | rebuilt => exact ⟨fun _ => ⟨rfl, nofun⟩, fun _ => rfl⟩
  | @unstarted stage state problem comes refused =>
    rw [stages_run]
    exact ⟨nofun, nofun⟩
  | @exited stage reply failed =>
    exact ⟨nofun, fun whole => absurd (whole.2 _ List.mem_cons_self) failed⟩
  | succeeded done rest ih =>
    rw [ih, stages_run, List.map_cons, List.forall_mem_cons, List.cons_inj_right]
    exact and_congr_right fun _ => ⟨fun rest => ⟨done, rest⟩, And.right⟩

/-- Otherwise the failure names the first stage that failed. -/
theorem rebuilt_or_failed : result = .ok .rebuilt ∨ ∃ stage failure,
    result = .error (.stageFailed stage (task.launchOf stage) failure) ∧
      FirstFailed task tools begun phase.stages invoked stage failure := by
  induction runs with
  | rebuilt => exact .inl rfl
  | unstarted comes refused =>
    rw [stages_run]
    exact .inr ⟨_, _, rfl, .unstarted nofun (List.prefix_append [_] _) comes refused⟩
  | exited failed => exact .inr ⟨_, _, rfl, .exited (List.nil_append _).symm nofun failed⟩
  | succeeded done rest ih =>
    refine ih.imp_right ?_
    rintro ⟨stage, failure, rfl, first⟩
    refine ⟨stage, failure, rfl, ?_⟩
    rw [stages_run]
    cases first with
    | unstarted succeeded next comes refused =>
      refine .unstarted (List.forall_mem_cons.mpr ⟨done, succeeded⟩) ?_ comes refused
      rw [List.map_cons, List.cons_append, List.prefix_cons_inj]
      exact next
    | exited whole succeeded failed =>
      rw [whole]
      exact .exited (List.cons_append ..).symm (List.forall_mem_cons.mpr ⟨done, succeeded⟩) failed

end Runs

/-! ### The way to the toolchain -/

/-- The toolchain is not reached. -/
def Phase.Early : Phase → Prop
  | .run _ => False
  | .finished result => result ≠ .ok .rebuilt ∧
    ∀ stage launch failure, result ≠ .error (.stageFailed stage launch failure)
  | _ => True

private theorem early_next {α ε : Type} {onward : α → Phase} {wrap : ε → BuildFailure}
    (goes : ∀ value, (onward value).Early)
    (other : ∀ problem stage launch failure, wrap problem ≠ .stageFailed stage launch failure)
    (outcome : Except ε α) (state : BuildState) :
    (Phase.next onward (outcome.mapError wrap, state)).1.Early := by
  cases outcome with
  | ok value => exact goes value
  | error problem =>
    exact ⟨nofun, fun stage launch failure same => other _ _ _ _ (Except.error.inj same)⟩

private theorem early_expanding {α : Type} {onward : α → Phase}
    (goes : ∀ value, (onward value).Early) (state : BuildState) (expansion : Expanding α) :
    (Phase.next onward (state.expanding expansion)).1.Early := by
  obtain ⟨outcome, same⟩ := state.fst_expanding expansion
  have whole : state.expanding expansion =
      (outcome.mapError .expansion, (state.expanding expansion).2) := Prod.ext same rfl
  rw [whole]
  refine early_next goes ?_ outcome _
  nofun

/-- The toolchain is reached from the writing of the expanded text alone. -/
theorem early_step (early : phase.Early) : (task.step tools phase state).1.Early ∨
    (∃ text, phase = .write text) ∧ (task.step tools phase state).1 = .run .compile := by
  cases phase with
  | lookup =>
    refine .inl ?_
    change (task.stepLookup state).1.Early
    unfold stepLookup
    split <;> trivial
  | discover => exact .inl (@early_expanding _ .store (fun _ => trivial) _ _)
  | rediscover => exact .inl (@early_expanding _ .restore (fun _ => trivial) _ _)
  | expand =>
    exact .inl (@early_expanding Expanded (fun expansion => .write expansion.text)
      (fun _ => trivial) _ _)
  | store set => exact .inl trivial
  | judge set =>
    refine .inl ?_
    change (task.stepJudge set state).1.Early
    unfold stepJudge
    split
    · split
      · exact ⟨nofun, nofun⟩
      · trivial
    · trivial
  | refresh =>
    rw [(task.step_refresh tools state).1]
    exact .inl ⟨nofun, nofun⟩
  | prepare =>
    refine .inl ?_
    change (task.stepPrepare state).1.Early
    unfold stepPrepare
    split
    · trivial
    · refine @early_next _ _ (fun _ => .rediscover) _ (fun _ => trivial) ?_ _ _
      nofun
  | restore set => exact .inl trivial
  | write text =>
    change (task.stepWrite text state).1.Early ∨ _ ∧ (task.stepWrite text state).1 = _
    unfold stepWrite BuildState.changing
    dsimp only
    cases (state.world.write task.artifacts.expanded (.text text)).1 with
    | ok => exact .inr ⟨⟨text, rfl⟩, rfl⟩
    | error problem =>
      refine .inl ⟨?_, ?_⟩
      · nofun
      · nofun
  | run stage => exact early.elim
  | finished result => exact .inl early

/-- The work ends without the toolchain, or comes to it. -/
theorem approach (comes : Comes task tools begun phase state) (early : phase.Early) :
    (task.invocations tools phase state = [] ∧
      (Phase.finished (task.complete tools phase state).1).Early) ∨
    ∃ ready, Comes task tools begun (.run .compile) ready ∧
      task.invocations tools phase state = task.invocations tools (.run .compile) ready ∧
      task.complete tools phase state = task.complete tools (.run .compile) ready := by
  induction phase, state using step_induction task tools with
  | finished result state =>
    rw [invocations_finished, complete_finished]
    exact .inl ⟨rfl, early⟩
  | running phase state running ih =>
    have other : ∀ stage, phase ≠ .run stage := fun stage same => by
      rw [same] at early
      exact early
    rw [invocations_running running, complete_running running, invoked?_eq_none other,
      Option.toList_none, List.nil_append]
    have onward := comes.step running
    rcases early_step early with later | ⟨_, reached⟩
    · exact ih onward later
    · rw [reached] at onward ⊢
      exact .inr ⟨_, onward, rfl, rfl⟩

/-- At some point of the work the dependencies were searched for afresh, and found. -/
def Searched (task : Task) (tools : Tools) (begun : BuildState) (set : PathSet) : Prop :=
  ∃ state, Comes task tools begun .rediscover state ∧
    (state.expanding (discover state.world.files task.searchPath task.source task.headers)).1 =
      .ok set

/-- At some point of the work the source was expanded to the text. -/
def ExpandsTo (task : Task) (tools : Tools) (begun : BuildState) (text : Text) : Prop :=
  ∃ state expansion, Comes task tools begun .expand state ∧
    (state.expanding (task.expand state.world.files)).1 = .ok expansion ∧ expansion.text = text

/-- The dependencies that were found afresh are those known for the command. -/
def Renewed (task : Task) (tools : Tools) (begun state : BuildState) : Prop :=
  ∃ set, task.Searched tools begun set ∧ state.cache.find? task.key = some set

/-- What was done before the work came to a phase. -/
def Readying (task : Task) (tools : Tools) (begun state : BuildState) : Phase → Prop
  | .restore set => task.Searched tools begun set
  | .expand => task.Renewed tools begun state
  | .write text => task.Renewed tools begun state ∧ task.ExpandsTo tools begun text
  | .run .compile => task.Renewed tools begun state ∧ ∃ text, task.ExpandsTo tools begun text ∧
    state.world.files.readText task.artifacts.expanded = .ok text
  | _ => True

private theorem readying_next {α : Type} {onward : α → Phase}
    (result : Except BuildFailure α × BuildState)
    (goes : ∀ value, result.1 = .ok value →
      task.Readying tools begun result.2 (onward value)) :
    task.Readying tools begun (Phase.next onward result).2 (Phase.next onward result).1 := by
  obtain ⟨outcome, state⟩ := result
  cases outcome with
  | ok value => exact goes value rfl
  | error problem => trivial

private theorem readying_write {text : Text} (renewed : task.Renewed tools begun state)
    (expands : task.ExpandsTo tools begun text) :
    task.Readying tools begun (task.step tools (.write text) state).2
      (task.step tools (.write text) state).1 := by
  change task.Readying tools begun (task.stepWrite text state).2 (task.stepWrite text state).1
  unfold stepWrite BuildState.changing World.write World.change
  dsimp only
  cases done : state.world.files.write task.artifacts.expanded state.world.now (.text text) with
  | error problem => trivial
  | ok files =>
    refine ⟨renewed, text, expands, ?_⟩
    obtain ⟨location, leads, rfl⟩ := FileSystem.write_eq_ok.mp done
    have written := FileSystem.file?_put (FileSystem.free_of_outlet? leads)
      { (state.world.files.fileAt? location).getD ⟨.text [], state.world.now, false, false⟩ with
        contents := .text text, modified := state.world.now } task.artifacts.expanded
    exact FileSystem.readText_eq_ok.mpr ⟨_, written.trans (if_pos leads), rfl⟩

theorem readying_of_comes (comes : Comes task tools begun phase state) :
    task.Readying tools begun state phase := by
  induction comes with
  | start => trivial
  | @step phase state earlier running ih =>
    cases phase with
    | lookup =>
      change task.Readying tools begun (task.stepLookup state).2 (task.stepLookup state).1
      unfold stepLookup
      split <;> trivial
    | discover => exact readying_next _ fun _ _ => trivial
    | store set => trivial
    | judge set =>
      change task.Readying tools begun (task.stepJudge set state).2 (task.stepJudge set state).1
      unfold stepJudge
      split
      · split <;> trivial
      · trivial
    | refresh =>
      rw [(task.step_refresh tools state).1]
      trivial
    | prepare =>
      change task.Readying tools begun (task.stepPrepare state).2 (task.stepPrepare state).1
      unfold stepPrepare
      split
      · trivial
      · exact readying_next _ fun _ _ => trivial
    | rediscover => exact readying_next _ fun set found => ⟨state, earlier, found⟩
    | restore set =>
      exact ⟨set, ih, DependencyStore.find?_insert_self⟩
    | expand =>
      refine readying_next _ fun expansion done => ⟨?_, state, expansion, earlier, done, rfl⟩
      obtain ⟨set, searched, known⟩ := ih
      exact ⟨set, searched, by rw [BuildState.cache_expanding]; exact known⟩
    | write text => exact readying_write ih.1 ih.2
    | run stage =>
      have attempt := task.attempt_step tools stage state
      generalize task.reply? tools stage state = reply at attempt
      generalize task.step tools (.run stage) state = next at attempt
      cases attempt with
      | unstarted => trivial
      | exited => trivial
      | succeeded => cases stage <;> trivial
    | finished result => cases running

end Task

end ShaderBuild
