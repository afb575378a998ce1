import ShaderBuild.Proofs.Build.Completeness
import ShaderBuild.Proofs.Build.Endings
import ShaderBuild.Proofs.Dependency.Saving
/-!
Runs without a failure. Everything goes onward: no dependencies are forgotten, files advance, and once
a command has come to a phase, what the phase needs is there.
-/
namespace ShaderBuild

open FileSystem (Advances Recent)
open ShaderBuild.Task (Phase Move)

/-- From one state to the other the clock goes on, files advance, and no dependencies are forgotten. -/
structure BuildState.Onward (bound : Instant) (written : List Path) (before after : BuildState) :
    Prop where
  clock : after.world.clock = before.world.clock
  ticks : before.world.ticks ≤ after.world.ticks
  files : Advances bound written before.world.files after.world.files
  known : ∀ key, (before.cache.find? key).isSome → (after.cache.find? key).isSome

namespace BuildState.Onward

variable {bound : Instant} {written : List Path} {first second third : BuildState}

theorem refl (state : BuildState) : Onward bound written state state :=
  ⟨rfl, Nat.le_refl _, .refl _, fun _ there => there⟩

theorem trans (once : Onward bound written first second) (again : Onward bound written second third) :
    Onward bound written first third :=
  ⟨again.clock.trans once.clock, Nat.le_trans once.ticks again.ticks, once.files.trans again.files,
    fun key there => again.known key (once.known key there)⟩

theorem insert (state : BuildState) (key : DependencyKey) (set : PathSet) :
    Onward bound written state { state with cache := state.cache.insert key set } := by
  refine ⟨rfl, Nat.le_refl _, .refl _, fun other there => ?_⟩
  dsimp only
  rw [DependencyStore.find?_insert]
  split
  · rfl
  · exact there

theorem change {world : World} {launches : List Launch} (clock : world.clock = first.world.clock)
    (ticks : first.world.ticks ≤ world.ticks)
    (files : Advances bound written first.world.files world.files) :
    Onward bound written first { first with world := world, launches := launches } :=
  ⟨clock, ticks, files, fun _ there => there⟩

theorem now (onward : Onward bound written first second) (steady : first.world.Steady) :
    first.world.now ≤ second.world.now := by
  unfold World.now
  rw [onward.clock]
  exact steady _ _ onward.ticks

end BuildState.Onward

namespace Task

variable {task : Task} {tools : Tools} {bound : Instant} {written : List Path}
  {phase next : Phase} {state after : BuildState}

/-- A tool that ends with status zero has written its output and nothing else, with a time of the
clock from its start on. -/
def Prompt (task : Task) (tools : Tools) : Prop :=
  ∀ launches stage world reply after,
    tools.respond launches (task.launchOf stage) world = (reply, after) → reply.status = .exited 0 →
      FileSystem.Writes (stage.output task.artifacts) world.files after.files ∧
        after.clock = world.clock ∧ world.ticks ≤ after.ticks ∧
          Recent world.now after.files [stage.output task.artifacts]

/-- What is there once the work has come to a phase: from the judgement on dependencies are known, and
the artifacts that come before the phase are at least as new as the bound. -/
def Ready (task : Task) (bound : Instant) (state : BuildState) : Phase → Prop
  | .lookup | .discover | .store _ | .finished (.error _) => True
  | .refresh => (state.cache.find? task.key).isSome ∧
    ∀ artifact ∈ task.artifacts.all, state.world.files.isFile artifact = true
  | .finished (.ok .upToDate) => (state.cache.find? task.key).isSome ∧
    Recent bound state.world.files task.artifacts.all
  | .finished (.ok .wouldRebuild) => False
  | phase => (state.cache.find? task.key).isSome ∧
    Recent bound state.world.files (task.artifacts.before phase)

theorem Ready.onward (ready : task.Ready bound state phase)
    (onward : BuildState.Onward bound written state after) : task.Ready bound after phase := by
  cases phase with
  | lookup | discover | store set => trivial
  | refresh =>
    exact ⟨onward.known _ ready.1, fun path member => onward.files.isFile (ready.2 path member)⟩
  | finished result =>
    cases result with
    | error problem => trivial
    | ok outcome =>
      cases outcome with
      | wouldRebuild => exact ready
      | _ => exact ⟨onward.known _ ready.1, onward.files.recent ready.2⟩
  | _ => exact ⟨onward.known _ ready.1, onward.files.recent ready.2⟩

theorem ready_quiet : task.Ready bound state.quiet phase ↔ task.Ready bound state phase :=
  Iff.rfl

/-- A step fails or goes onward, and what is to be there by then is. -/
theorem ready_of_move (wet : task.settings.dryRun = false) (prompt : task.Prompt tools)
    (listed : task.artifacts.all ⊆ written) (present : bound ≤ state.world.now)
    (move : Move task tools phase state next after) (ready : task.Ready bound state phase) :
    (∃ problem, next = .finished (.error problem)) ∨
      BuildState.Onward bound written state after ∧ task.Ready bound after next := by
  have nothing (files : FileSystem) : Recent bound files [] := nofun
  have stored (set : PathSet) : ((state.cache.insert task.key set).find? task.key).isSome := by
    rw [DependencyStore.find?_insert_self]
    rfl
  cases move with
  | hit known => exact .inr ⟨.refl _, Option.isSome_iff_exists.mpr ⟨_, known⟩, nothing _⟩
  | miss => exact .inr ⟨.refl _, trivial⟩
  | discovered => exact .inr ⟨.refl _, trivial⟩
  | undiscovered => exact .inl ⟨_, rfl⟩
  | store set => exact .inr ⟨.insert _ _ _, stored set, nothing _⟩
  | fresh current =>
    -- What is not stale is there to be refreshed.
    rw [isStale, Bool.or_eq_false_iff, Freshness.filesStale_eq_false_iff] at current
    refine .inr ⟨.refl _, ready.1, fun artifact member => ?_⟩
    obtain ⟨file, found, _⟩ := current.2.2 artifact member
    rw [FileSystem.isFile_eq, found]
    rfl
  | report _ dry => simp [wet] at dry
  | rebuild => exact .inr ⟨.refl _, ready.1, nothing _⟩
  | @refreshed _ count files done =>
    have advances := @Advances.refresh bound state.world.now written task.artifacts.all
      state.world.files listed present
    have recent := @FileSystem.recent_refresh state.world.now task.artifacts.all _ ready.2
    rw [done] at advances recent
    exact .inr ⟨.change rfl (Nat.le_succ _) advances, ready.1, recent.mono present⟩
  | unrefreshed => exact .inl ⟨_, rfl⟩
  | prepared =>
    refine .inr ⟨@BuildState.Onward.change bound written state _ state.launches rfl
      (Nat.le_refl _) ?_, ready.1, nothing _⟩
    dsimp only
    unfold Task.prepared
    split
    · exact .refl _
    · exact .makeDirectories _ _
  | unprepared => exact .inl ⟨_, rfl⟩
  | rediscovered => exact .inr ⟨.refl _, ready.1, nothing _⟩
  | unrediscovered => exact .inl ⟨_, rfl⟩
  | restore set => exact .inr ⟨.insert _ _ _, stored set, nothing _⟩
  | expanded => exact .inr ⟨.refl _, ready.1, nothing _⟩
  | unexpanded => exact .inl ⟨_, rfl⟩
  | written done =>
    have recent := (FileSystem.recent_write done).mono present
    have advances := Advances.writes (FileSystem.writes_of_write done)
      (listed (expanded_mem task.artifacts)) fun file found => by
        obtain ⟨own, same, new⟩ := recent _ List.mem_cons_self
        exact Option.some.inj (same.symm.trans found) ▸ new
    exact .inr ⟨.change rfl (Nat.le_succ _) advances, ready.1, recent⟩
  | unwritten => exact .inl ⟨_, rfl⟩
  | unstarted => exact .inl ⟨_, rfl⟩
  | exited => exact .inl ⟨_, rfl⟩
  | @succeeded _ stage reply world _ ended done =>
    obtain ⟨writes, clock, ticks, now⟩ := prompt _ _ _ _ _ ended done
    have recent := now.mono present
    have advances := Advances.writes writes (listed (output_mem stage task.artifacts))
      fun file found => by
        obtain ⟨own, same, new⟩ := recent _ List.mem_cons_self
        exact Option.some.inj (same.symm.trans found) ▸ new
    -- The artifacts of earlier stages stay recent, and that of this stage is new.
    have whole : Recent bound world.files (task.artifacts.before (Phase.afterStage stage)) := by
      rw [before_afterStage]
      intro path member
      rcases List.mem_append.mp member with earlier | own
      · exact advances.recent ready.2 path earlier
      · exact recent path own
    refine .inr ⟨.change clock ticks advances, ?_⟩
    cases stage <;> exact ⟨ready.1, whole⟩

private theorem stored_of_move {second : BuildState} (filled : task.key.Filled)
    (plain : ':' ∉ task.key.dialect) (move : Move task tools phase state next second)
    (sound : state.cache.Sound ∧ state.cache.Plain)
    (carried : ∀ set, phase.carried? = some set → set.Distinct) :
    (second.cache.Sound ∧ second.cache.Plain) ∧
      ∀ set, next.carried? = some set → set.Distinct := by
  have carries {set : PathSet} (distinct : set.Distinct) (other : PathSet)
      (same : some set = some other) : other.Distinct := Option.some.inj same ▸ distinct
  have stores {set : PathSet} (distinct : set.Distinct) :
      (state.cache.insert task.key set).Sound ∧ (state.cache.insert task.key set).Plain :=
    ⟨sound.1.insert filled distinct, sound.2.insert plain set⟩
  cases move with
  | hit known =>
    obtain ⟨key, member, _⟩ := (DependencyStore.find?_eq_some sound.1.distinct).mp known
    exact ⟨sound, carries (sound.1.sets _ member)⟩
  | discovered found => exact ⟨sound, carries (distinct_discover found)⟩
  | rediscovered found => exact ⟨sound, carries (distinct_discover found)⟩
  | store set => exact ⟨stores (carried set rfl), carries (carried set rfl)⟩
  | restore set => exact ⟨stores (carried set rfl), nofun⟩
  | @succeeded _ stage => cases stage <;> exact ⟨sound, nofun⟩
  | _ => exact ⟨sound, nofun⟩

end Task

namespace Team

variable {ι : Type} [DecidableEq ι] {team : Team ι} {phases : ι → Phase} {state : BuildState}
  {written : List Path}

/-- As long as no command has failed, everything goes onward, and what is to be there is. -/
theorem ready_of_reaches (noFile : team.begun.fileLevel = none) (steady : team.begun.world.Steady)
    (wet : ∀ worker, (team.tasks worker).settings.dryRun = false)
    (prompt : ∀ worker, (team.tasks worker).Prompt team.tools)
    (listed : ∀ worker, (team.tasks worker).artifacts.all ⊆ written)
    (reaches : team.Reaches phases state) :
    state.fileLevel = none ∧ ((∃ worker problem, phases worker = .finished (.error problem)) ∨
      BuildState.Onward team.begun.world.now written team.begun state ∧
        ∀ worker, (team.tasks worker).Ready team.begun.world.now state (phases worker)) := by
  induction reaches with
  | start => exact ⟨noFile, .inr ⟨.refl _, fun _ => trivial⟩⟩
  | @step phases state earlier worker running ih =>
    obtain ⟨quiet, ⟨failed, problem, ended⟩ | ⟨onward, ready⟩⟩ := ih
    · have move := @Task.move_of_step (team.tasks worker) team.tools (phases worker) state quiet running
      refine ⟨move.fileLevel.trans quiet, .inl ⟨failed, problem, ?_⟩⟩
      rw [Function.update_of_ne, ended]
      rintro rfl
      simp [ended, Phase.result?] at running
    · have move := @Task.move_of_step (team.tasks worker) team.tools (phases worker) state quiet running
      refine ⟨move.fileLevel.trans quiet, ?_⟩
      have now : team.begun.world.now ≤ state.quiet.world.now := onward.now steady
      rcases Task.ready_of_move (wet worker) (prompt worker) (listed worker) now move
        (Task.ready_quiet.mpr (ready worker)) with ⟨problem, ended⟩ | ⟨further, there⟩
      · exact .inl ⟨worker, problem, (Function.update_self ..).trans ended⟩
      · have step : BuildState.Onward team.begun.world.now written state
            ((team.tasks worker).step team.tools (phases worker) state).2 :=
          ⟨further.clock, further.ticks, further.files, further.known⟩
        refine .inr ⟨onward.trans step, fun other => ?_⟩
        by_cases own : other = worker
        · subst own
          rw [Function.update_self]
          exact Task.ready_quiet.mp there
        · rw [Function.update_of_ne own]
          exact (ready other).onward step

theorem stored_of_reaches (noFile : team.begun.fileLevel = none)
    (filled : ∀ worker, (team.tasks worker).key.Filled ∧ ':' ∉ (team.tasks worker).key.dialect)
    (sound : team.begun.cache.Sound ∧ team.begun.cache.Plain) (reaches : team.Reaches phases state) :
    state.fileLevel = none ∧ (state.cache.Sound ∧ state.cache.Plain) ∧
      ∀ worker set, (phases worker).carried? = some set → set.Distinct := by
  induction reaches with
  | start => exact ⟨noFile, sound, nofun⟩
  | @step phases state earlier worker running ih =>
    obtain ⟨quiet, sound, carried⟩ := ih
    have move := @Task.move_of_step (team.tasks worker) team.tools (phases worker) state quiet running
    obtain ⟨soundToo, carriedToo⟩ :=
      Task.stored_of_move (filled worker).1 (filled worker).2 move sound (carried worker)
    refine ⟨move.fileLevel.trans quiet, soundToo, fun other set carries => ?_⟩
    by_cases own : other = worker
    · subst own
      rw [Function.update_self] at carries
      exact carriedToo set carries
    · rw [Function.update_of_ne own] at carries
      exact carried other set carries

end Team

end ShaderBuild
