import ShaderBuild.Proofs.Build.Known
import ShaderBuild.Proofs.Build.Logging
/-!
What the steps of the work on a command leave as it is, also while a log is kept.
-/
namespace ShaderBuild

open BuildState (Annotated)

namespace BuildState

variable {α : Type}

theorem cache_expanding (state : BuildState) (expansion : Expanding α) :
    (state.expanding expansion).2.cache = state.cache := by
  induction expansion generalizing state with
  | ended log result => rfl
  | reading log path next ih => exact ih _ _

theorem fst_expanding (state : BuildState) (expansion : Expanding α) :
    ∃ outcome : Except ExpansionError α,
      (state.expanding expansion).1 = outcome.mapError .expansion := by
  induction expansion generalizing state with
  | ended log result => exact ⟨result, rfl⟩
  | reading log path next ih => exact ih _ _

end BuildState

namespace Task

variable {task : Task} {tools : Tools} {phase : Phase} {state : BuildState}

theorem snd_next {α : Type} (onward : α → Phase) (result : Except BuildFailure α × BuildState) :
    (Phase.next onward result).2 = result.2 := by
  obtain ⟨outcome, state⟩ := result
  cases outcome <;> rfl

/-- The phases in which files are read at most, and entries logged or dependencies stored. -/
def Phase.Reads : Phase → Prop
  | .refresh | .prepare | .write _ | .run _ => False
  | _ => True

theorem annotated_step (reads : phase.Reads) : Annotated state (task.step tools phase state).2 := by
  cases phase with
  | lookup =>
    change Annotated state (task.stepLookup state).2
    unfold stepLookup
    split <;> exact .record state _
  | discover | rediscover =>
    rw [step, stepDiscover, snd_next]
    exact .expanding state _
  | expand =>
    rw [step, stepExpand, snd_next]
    exact .expanding state _
  | store | restore => exact ⟨rfl, rfl, .refl _, fun _ => .same _⟩
  | judge set =>
    change Annotated state (task.stepJudge set state).2
    unfold stepJudge
    split
    · split <;> exact .record state _
    · exact .refl state
  | finished result => exact .refl state
  | _ => exact reads.elim

/-- Refreshing succeeds, and gives the artifacts the present time. -/
theorem step_refresh (task : Task) (tools : Tools) (state : BuildState) :
    (task.step tools .refresh state).1 = .finished (.ok .upToDate) ∧
      Annotated { state with
          world := state.world.after
            (Freshness.refresh state.world.now state.world.files task.artifacts.all).2 }
        (task.step tools .refresh state).2 := by
  obtain ⟨count, done⟩ := Freshness.refresh_ok state.world.now state.world.files task.artifacts.all
  change (task.stepRefresh state).1 = _ ∧ Annotated _ (task.stepRefresh state).2
  unfold stepRefresh
  revert done
  generalize Freshness.refresh state.world.now state.world.files task.artifacts.all = refreshed
  obtain ⟨answer, files⟩ := refreshed
  rintro rfl
  exact ⟨rfl, .record _ _⟩

theorem step_prepare (task : Task) (tools : Tools) (state : BuildState) :
    (task.step tools .prepare state).2 =
      { state with world := { state.world with files := task.prepared state.world.files } } := by
  change (task.stepPrepare state).2 = _
  unfold stepPrepare prepared
  cases task.outputBase.parent? with
  | none => rfl
  | some parent =>
    dsimp only
    rw [snd_next]
    rfl

theorem step_write (task : Task) (tools : Tools) (text : Text) (state : BuildState) :
    ∃ world, (task.step tools (.write text) state).2 = { state with world } ∧
      FileSystem.Writes task.artifacts.expanded state.world.files world.files := by
  change ∃ world, (task.stepWrite text state).2 = _ ∧ _
  unfold stepWrite BuildState.changing World.write World.change
  rw [snd_next]
  dsimp only
  split
  · exact ⟨_, rfl, FileSystem.writes_of_write ‹_›⟩
  · exact ⟨_, rfl, .inl rfl⟩

end Task

end ShaderBuild
