import ShaderBuild.Proofs.Build.Invocations
/-!
Which files a run can change, if programs change nothing but what they are asked for: that to which
the path of the expanded text leads, and those to which the outputs of the stages lead that are
started. A run that finds the artifacts up to date changes times.
-/
namespace ShaderBuild

open BuildState (Annotated)

/-- Logging leaves all directories and links, and all files, whatever they hold. -/
theorem BuildState.Annotated.grown {before after : BuildState} (annotated : Annotated before after) :
    before.world.files.Grown after.world.files := by
  refine ⟨annotated.framed.start, annotated.framed.home, fun location => ?_⟩
  have noted := annotated.node location
  generalize before.world.files.node? location = old at noted
  generalize after.world.files.node? location = new at noted
  cases noted with
  | same => exact .same _
  | added => exact .rewritten _ _

namespace Task

variable {task : Task} {tools : Tools} {phase : Phase} {state : BuildState} {location : Location}

/-- A program that is started for a stage makes and removes no directory and no link, and no file but
the one to which the output of the stage leads is changed by it. -/
def Modest (task : Task) (tools : Tools) : Prop :=
  ∀ launches stage world reply after,
    tools.respond launches (task.launchOf stage) world = (reply, after) →
      world.files.Framed after.files ∧ ∀ location,
        world.files.outlet? (stage.output task.artifacts) ≠ some location →
          after.files.fileAt? location = world.files.fileAt? location

theorem Confined.modest (confined : task.Confined tools) : task.Modest tools := by
  intro launches stage world reply after ended
  have writes := confined launches stage world reply after ended
  exact ⟨writes.framed, fun location apart => writes.fileAt? apart⟩

theorem framed_announced (task : Task) (stage : ToolStage) (state : BuildState) :
    state.world.files.Framed (task.announced stage state).world.files :=
  (Annotated.record state _).framed

theorem framed_step (modest : task.Modest tools) (other : phase ≠ .prepare) :
    state.world.files.Framed (task.step tools phase state).2.world.files := by
  by_cases reads : phase.Reads
  · exact (annotated_step reads).framed
  cases phase with
  | refresh =>
    exact (Freshness.retimed_refresh _ _ _).framed.trans (task.step_refresh tools state).2.framed
  | prepare => exact absurd rfl other
  | write text =>
    obtain ⟨world, same, writes⟩ := task.step_write tools text state
    rw [same]
    exact writes.framed
  | run stage =>
    have attempt := task.attempt_step tools stage state
    generalize task.reply? tools stage state = reply at attempt
    generalize task.step tools (.run stage) state = next at attempt
    have announced := task.framed_announced stage state
    cases attempt with
    | unstarted => exact announced
    | exited ended => exact announced.trans (modest _ _ _ _ _ ended).1
    | succeeded ended => exact announced.trans (modest _ _ _ _ _ ended).1
  | _ => exact absurd trivial reads

private theorem past_prepare (late : phase.rank ≤ Phase.prepare.rank)
    (running : phase.result? = none) (state : BuildState) :
    (task.step tools phase state).1.rank ≤ Phase.prepare.rank ∧
      (task.step tools phase state).1 ≠ .prepare := by
  have lower : (task.step tools phase state).1.rank < Phase.prepare.rank :=
    Nat.lt_of_lt_of_le (rank_step task tools phase state running) late
  refine ⟨Nat.le_of_lt lower, fun same => ?_⟩
  rw [same] at lower
  exact Nat.lt_irrefl _ lower

theorem framed_complete (modest : task.Modest tools) (late : phase.rank ≤ Phase.prepare.rank)
    (other : phase ≠ .prepare) :
    state.world.files.Framed (task.complete tools phase state).2.world.files := by
  induction phase, state using step_induction task tools with
  | finished result state =>
    rw [complete_finished]
    exact .refl _
  | running phase state running ih =>
    obtain ⟨later, onward⟩ := @past_prepare task tools phase late running state
    rw [complete_running running]
    exact (framed_step modest other).trans (ih later onward)

/-- First directories may be added, and then directories and links stay as they are. -/
theorem grown_complete (modest : task.Modest tools) (phase : Phase) (state : BuildState) :
    ∃ middle, state.world.files.Grown middle ∧
      middle.Framed (task.complete tools phase state).2.world.files := by
  induction phase, state using step_induction task tools with
  | finished result state =>
    rw [complete_finished]
    exact ⟨_, .refl _, .refl _⟩
  | running phase state running ih =>
    by_cases preparing : phase = .prepare
    · subst preparing
      obtain ⟨later, onward⟩ := @past_prepare task tools .prepare (Nat.le_refl _) running state
      have framed := @framed_complete task tools _ (task.step tools .prepare state).2 modest later
        onward
      have prepared : (task.step tools .prepare state).2.world.files =
          task.prepared state.world.files := congrArg (·.world.files) (task.step_prepare tools state)
      rw [complete_running running]
      exact ⟨_, grown_prepared task _, prepared ▸ framed⟩
    by_cases reads : phase.Reads
    · obtain ⟨middle, grown, framed⟩ := ih
      rw [complete_running running]
      exact ⟨middle, (annotated_step reads).grown.trans grown, framed⟩
    · refine ⟨_, .refl _, framed_complete modest ?_ preparing⟩
      cases phase with
      | refresh | write => simp [Phase.rank]
      | run stage => cases stage <;> decide
      | prepare => exact absurd rfl preparing
      | _ => exact absurd trivial reads

theorem outlet?_complete {path : Path} (modest : task.Modest tools)
    (leads : state.world.files.outlet? path = some location)
    (present : (state.world.files.fileAt? location).isSome) :
    (task.complete tools phase state).2.world.files.outlet? path = some location := by
  obtain ⟨middle, grown, framed⟩ := task.grown_complete modest phase state
  rw [← framed.outlet?]
  exact grown.outlet? leads present

/-- A step that refreshes nothing leaves a file that it does not write. -/
theorem fileAt?_step (modest : task.Modest tools) (other : phase ≠ .refresh)
    (plain : ∀ file, state.world.files.fileAt? location = some file → file.keepsLog = false)
    (unwritten : ∀ text, phase = .write text →
      state.world.files.outlet? task.artifacts.expanded ≠ some location)
    (unasked : ∀ entry, task.invoked? tools phase state = some entry →
      state.world.files.outlet? (entry.1.output task.artifacts) ≠ some location) :
    (task.step tools phase state).2.world.files.fileAt? location =
      state.world.files.fileAt? location := by
  by_cases reads : phase.Reads
  · exact (annotated_step reads).fileAt? plain
  cases phase with
  | refresh => exact absurd rfl other
  | prepare =>
    rw [step_prepare]
    exact fileAt?_prepared _ _ _
  | write text =>
    obtain ⟨world, same, writes⟩ := task.step_write tools text state
    rw [same]
    exact writes.fileAt? (unwritten text rfl)
  | run stage =>
    have attempt := task.attempt_step tools stage state
    change ∀ entry, (task.reply? tools stage state).map _ = some entry → _ at unasked
    generalize task.reply? tools stage state = reply at attempt unasked
    generalize task.step tools (.run stage) state = next at attempt
    have announced : (task.announced stage state).world.files.fileAt? location =
        state.world.files.fileAt? location := (Annotated.record state _).fileAt? plain
    cases attempt with
    | unstarted => exact announced
    | exited ended =>
      refine ((modest _ _ _ _ _ ended).2 location ?_).trans announced
      rw [← (task.framed_announced stage state).outlet?]
      exact unasked _ rfl
    | succeeded ended =>
      refine ((modest _ _ _ _ _ ended).2 location ?_).trans announced
      rw [← (task.framed_announced stage state).outlet?]
      exact unasked _ rfl
  | _ => exact absurd trivial reads

/-- A file is as it was, but for its time if the artifacts were up to date. -/
def Retained (result : Except BuildFailure Outcome) (old new : Option File) : Prop :=
  new = old ∨ result = .ok .upToDate ∧ ∃ time, new = old.map (File.stamped time)

private theorem retained_refresh
    (plain : ∀ file, state.world.files.fileAt? location = some file → file.keepsLog = false) :
    Retained (task.complete tools .refresh state).1 (state.world.files.fileAt? location)
      ((task.complete tools .refresh state).2.world.files.fileAt? location) := by
  obtain ⟨ended, annotated⟩ := task.step_refresh tools state
  rw [complete_running rfl, ended, complete_finished]
  have retimed := (Freshness.retimed_refresh state.world.now state.world.files
    task.artifacts.all).file location
  rcases retimed with same | stamped
  · refine .inl ((annotated.fileAt? ?_).trans same)
    exact fun file there => plain file (same.symm.trans there)
  · refine .inr ⟨rfl, state.world.now, (annotated.fileAt? ?_).trans stamped⟩
    intro file there
    obtain ⟨old, found, rfl⟩ := Option.map_eq_some_iff.mp (stamped.symm.trans there)
    exact plain old found

private theorem fileAt?_step_of_complete (modest : task.Modest tools) (running : phase.result? = none)
    (other : phase ≠ .refresh)
    (plain : ∀ file, state.world.files.fileAt? location = some file → file.keepsLog = false)
    (unwritten : (task.complete tools phase state).2.world.files.outlet? task.artifacts.expanded ≠
      some location)
    (unasked : ∀ entry ∈ task.invocations tools phase state,
      (task.complete tools phase state).2.world.files.outlet? (entry.1.output task.artifacts) ≠
        some location) :
    (task.step tools phase state).2.world.files.fileAt? location =
      state.world.files.fileAt? location := by
  refine fileAt?_step modest other plain (fun text writing => ?_) fun entry started => ?_
  · subst writing
    rw [(@framed_complete task tools (.write text) state modest (by simp [Phase.rank]) (by simp)).outlet?]
    exact unwritten
  · obtain ⟨stage, rfl⟩ : ∃ stage, phase = .run stage := by
      cases phase with
      | run stage => exact ⟨stage, rfl⟩
      | _ => cases started
    have late : (Phase.run stage).rank ≤ Phase.prepare.rank := by cases stage <;> decide
    rw [(@framed_complete task tools (.run stage) state modest late (by simp)).outlet?]
    refine unasked entry ?_
    rw [invocations_running running, started]
    exact List.mem_cons_self

/-- A run leaves a file that does not keep the log, and to which neither the path of the expanded text
leads nor the output of a stage that is started. -/
theorem retained_complete (modest : task.Modest tools)
    (plain : ∀ file, state.world.files.fileAt? location = some file → file.keepsLog = false)
    (unwritten : (task.complete tools phase state).2.world.files.outlet? task.artifacts.expanded ≠
      some location)
    (unasked : ∀ entry ∈ task.invocations tools phase state,
      (task.complete tools phase state).2.world.files.outlet? (entry.1.output task.artifacts) ≠
        some location) :
    Retained (task.complete tools phase state).1 (state.world.files.fileAt? location)
      ((task.complete tools phase state).2.world.files.fileAt? location) := by
  induction phase, state using step_induction task tools with
  | finished result state =>
    rw [complete_finished]
    exact .inl rfl
  | running phase state running ih =>
    by_cases refreshing : phase = .refresh
    · subst refreshing
      exact retained_refresh plain
    have same := fileAt?_step_of_complete modest running refreshing plain unwritten unasked
    rw [invocations_running running] at unasked
    rw [complete_running running] at unwritten unasked ⊢
    rw [← same]
    refine ih (fun file there => plain file (same ▸ there)) unwritten fun entry member => ?_
    exact unasked entry (List.mem_append_right _ member)

private theorem fileAt?_step_refresh
    (plain : ∀ file, state.world.files.fileAt? location = some file → file.keepsLog = false)
    (apart : ∀ path ∈ task.artifacts.all, state.world.files.outlet? path ≠ some location) :
    (task.step tools .refresh state).2.world.files.fileAt? location =
      state.world.files.fileAt? location := by
  have same : (Freshness.refresh state.world.now state.world.files
      task.artifacts.all).2.fileAt? location = state.world.files.fileAt? location :=
    Freshness.fileAt?_refresh apart
  refine ((task.step_refresh tools state).2.fileAt? fun file there => plain file ?_).trans same
  exact same.symm.trans there

theorem fileAt?_step_apart (modest : task.Modest tools)
    (plain : ∀ file, state.world.files.fileAt? location = some file → file.keepsLog = false)
    (apart : ∀ path ∈ task.artifacts.all, state.world.files.outlet? path ≠ some location) :
    (task.step tools phase state).2.world.files.fileAt? location =
      state.world.files.fileAt? location := by
  by_cases refreshing : phase = .refresh
  · subst refreshing
    exact fileAt?_step_refresh plain apart
  · exact fileAt?_step modest refreshing plain (fun _ _ => apart _ (expanded_mem _)) fun _ _ =>
      apart _ (output_mem _ _)

/-- A run leaves a file that does not keep the log, and to which no artifact leads at its end. -/
theorem fileAt?_complete (modest : task.Modest tools)
    (plain : ∀ file, state.world.files.fileAt? location = some file → file.keepsLog = false)
    (apart : ∀ path ∈ task.artifacts.all,
      (task.complete tools phase state).2.world.files.outlet? path ≠ some location) :
    (task.complete tools phase state).2.world.files.fileAt? location =
      state.world.files.fileAt? location := by
  induction phase, state using step_induction task tools with
  | finished result state => rw [complete_finished]
  | running phase state running ih =>
    by_cases refreshing : phase = .refresh
    · subst refreshing
      have framed := @framed_complete task tools .refresh state modest (by decide) (by simp)
      rw [complete_running rfl, (task.step_refresh tools state).1, complete_finished]
      exact fileAt?_step_refresh plain fun path member => by
        rw [framed.outlet?]
        exact apart path member
    · have same := fileAt?_step_of_complete modest running refreshing plain
        (apart _ (expanded_mem _)) fun entry _ => apart _ (output_mem _ _)
      rw [complete_running running] at apart ⊢
      rw [← same]
      exact ih (fun file there => plain file (same ▸ there)) apart

end Task

end ShaderBuild
