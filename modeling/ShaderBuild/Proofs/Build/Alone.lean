import ShaderBuild.Proofs.Build.Independence
/-!
Each step in the work on one of independent commands is the step that the work on it alone takes, so
the work on all of them is for each the work on it alone.
-/
namespace ShaderBuild.Team

open ShaderBuild.Task (Phase Move)

variable {ι : Type} {team : Team ι} {worker : ι} {base : FileSystem} {phase next : Phase}
  {state after alone : BuildState}

/-- What the results of side by side work rest on. -/
structure Orderly (team : Team ι) : Prop where
  noFile : team.begun.fileLevel = none
  makers : ∀ worker state, team.Alone worker .prepare state → team.makers worker
  confined : team.Confined
  deterministic : team.Deterministic
  independent : team.Independent
  unmoved : team.Unmoved

/-- The work alone goes on in the same way. -/
private def Follows (team : Team ι) (worker : ι) (next : Phase) (after : BuildState) : Prop :=
  ∃ later, team.Alone worker next later ∧ team.Twin worker next after later

private theorem follows (orderly : team.Orderly) (comes : team.Alone worker phase alone)
    {later : BuildState} (move : Move (team.tasks worker) team.tools phase alone.quiet next later)
    (twin : team.Twin worker next after later) : Follows team worker next after := by
  obtain ⟨last, reached, rfl⟩ := Task.Comes.move comes orderly.noFile rfl move
  exact ⟨last, reached, twin.entry, twin.files⟩

section

variable (orderly : team.Orderly) (above : team.Over base state.world.files)
  (comes : team.Alone worker phase alone) (twin : team.Twin worker phase state alone)
include orderly above comes twin

private theorem follows_write {text : Text} (writes : phase = .write text)
    (move : Move (team.tasks worker) team.tools phase state next after) :
    Follows team worker next after := by
  subst writes
  obtain ⟨maker, settled, calm⟩ := twin.files
  have same : alone.world.files = (team.tasks worker).prepared team.begun.world.files :=
    (Task.untouched_of_comes comes orderly.noFile).2
  have member := Task.expanded_mem (team.tasks worker).artifacts
  have locates := locate_settled orderly.independent above comes settled calm orderly.unmoved rfl
    same member
  cases move with
  | @written _ _ files done =>
    obtain ⟨location, leads, _⟩ := FileSystem.write_eq_ok.mp done
    have leadsToo : alone.world.files.outlet? (team.tasks worker).artifacts.expanded =
        some location := by
      rw [FileSystem.outlet?, ← locates .target]
      exact leads
    obtain ⟨filesToo, doneToo⟩ : ∃ filesToo, alone.world.files.write
        (team.tasks worker).artifacts.expanded alone.world.now (.text text) = .ok filesToo :=
      ⟨_, FileSystem.write_eq_ok.mpr ⟨location, leadsToo, rfl⟩⟩
    refine follows orderly comes (@Move.written _ _ alone.quiet _ _ doneToo) ⟨twin.entry, ?_⟩
    rw [same] at doneToo leadsToo
    have place := fun artifact member =>
      orderly.unmoved.place worker _ alone comes artifact (.artifact member)
    exact calm.write settled above place member (leads.trans leadsToo.symm) done doneToo
  | unwritten failed =>
    have failedToo : alone.world.files.write (team.tasks worker).artifacts.expanded
        alone.world.now (.text text) = .error _ :=
      FileSystem.write_eq_error (locates .creation) failed
    refine follows orderly comes (@Move.unwritten _ _ alone.quiet _ _ failedToo)
      ⟨twin.entry, .inr ?_⟩
    have laid : team.Laid alone.world.files := same ▸ Laid.start.prepared maker
    exact calm.spared orderly.unmoved laid

private theorem follows_run {stage : ToolStage} (runs : phase = .run stage)
    (move : Move (team.tasks worker) team.tools phase state next after) :
    Follows team worker next after := by
  subst runs
  have written : team.Written worker state.world.files alone.world.files := twin.files
  have still : ∀ path ∈ ((team.tasks worker).launchOf stage).program ::
      (team.tasks worker).artifacts.all, team.Still worker path ∧
        (team.tasks worker).Uses alone.world.files (.run stage) path := by
    intro path member
    rcases List.mem_cons.mp member with rfl | member
    · exact ⟨orderly.unmoved.place worker _ alone comes _ (.program stage), .program stage⟩
    · exact ⟨written.place path member, .artifact member⟩
  have locates := fun path member aim => locate_written orderly.independent above comes written
    (still path member).1 (still path member).2 aim
  have checks : ((team.tasks worker).launchOf stage).check state.world.files =
      ((team.tasks worker).launchOf stage).check alone.world.files := by
    unfold Launch.check
    rw [FileSystem.checkExecutable_congr (locates _ List.mem_cons_self .target)]
  obtain ⟨replies, files⟩ := orderly.deterministic worker stage state.launches alone.launches
    state.world alone.world locates
  have member := Task.output_mem stage (team.tasks worker).artifacts
  -- What the program leaves behind stands in the same place.
  have left {reply : ToolReply} {world : World}
      (ended : team.tools.respond state.launches ((team.tasks worker).launchOf stage) state.world =
        (reply, world)) : ∃ worldToo, team.tools.respond alone.launches
          ((team.tasks worker).launchOf stage) alone.world = (reply, worldToo) ∧
        team.Written worker world.files worldToo.files := by
    rw [ended] at replies files
    refine ⟨(team.tools.respond alone.launches ((team.tasks worker).launchOf stage) alone.world).2,
      Prod.ext replies.symm rfl, ?_⟩
    have halts := (still _ (List.mem_cons_of_mem _ member)).1 base above.laid .target
    rw [Task.prepared_of_settled (written.settled.framed above.framed), ← above.framed.halt,
      ← written.framed.halt] at halts
    refine written.respond above member (orderly.confined worker _ _ _ _ _ ended)
      (orderly.confined worker _ _ _ _ _ rfl) ?_ files
    ext location
    unfold FileSystem.outlet?
    rw [FileSystem.outlet_locate_eq_some, FileSystem.outlet_locate_eq_some, halts]
  cases move with
  | unstarted refused =>
    rw [checks] at refused
    exact follows orderly comes (@Move.unstarted _ _ alone.quiet _ _ refused)
      ⟨twin.entry, .inl written⟩
  | exited started ended failed =>
    rw [checks] at started
    obtain ⟨worldToo, endedToo, writtenToo⟩ := left ended
    exact follows orderly comes (@Move.exited _ _ alone.quiet _ _ _ started endedToo failed)
      ⟨twin.entry, .inl writtenToo⟩
  | succeeded started ended done =>
    rw [checks] at started
    obtain ⟨worldToo, endedToo, writtenToo⟩ := left ended
    refine follows orderly comes (@Move.succeeded _ _ alone.quiet _ _ _ started endedToo done)
      ⟨twin.entry, ?_⟩
    cases stage with
    | crossCompile => exact .inl writtenToo
    | _ => exact writtenToo

omit above in
private theorem follows_lookup (looks : phase = .lookup)
    (move : Move (team.tasks worker) team.tools phase state next after) :
    Follows team worker next after := by
  subst looks
  cases move with
  | hit known =>
    exact follows orderly comes (@Move.hit _ _ alone.quiet _ (twin.entry ▸ known))
      ⟨twin.entry, twin.files⟩
  | miss unknown =>
    exact follows orderly comes (@Move.miss _ _ alone.quiet (twin.entry ▸ unknown))
      ⟨twin.entry, twin.files⟩

private theorem follows_discover (discovers : phase = .discover)
    (move : Move (team.tasks worker) team.tools phase state next after) :
    Follows team worker next after := by
  subst discovers
  have laid : team.Laid alone.world.files :=
    (Task.untouched_of_comes comes orderly.noFile).2 ▸ Laid.start
  have same := discovered_calm orderly.independent above comes orderly.unmoved twin.files laid
    fun _ => .discover
  cases move with
  | discovered found =>
    rw [same] at found
    exact follows orderly comes (@Move.discovered _ _ alone.quiet _ found) ⟨twin.entry, twin.files⟩
  | undiscovered failed =>
    rw [same] at failed
    exact follows orderly comes (@Move.undiscovered _ _ alone.quiet _ failed)
      ⟨twin.entry, .inr (twin.files.spared orderly.unmoved laid)⟩

private theorem follows_judge {set : PathSet} (judges : phase = .judge set)
    (move : Move (team.tasks worker) team.tools phase state next after) :
    Follows team worker next after := by
  subst judges
  have untouched : alone.world.files = team.begun.world.files :=
    (Task.untouched_of_comes comes orderly.noFile).2
  have same := isStale_calm orderly.independent above comes orderly.unmoved twin.files untouched rfl
  cases move with
  | fresh current =>
    rw [same] at current
    exact follows orderly comes (@Move.fresh _ _ alone.quiet _ current) ⟨twin.entry, twin.files⟩
  | report stale dry =>
    rw [same] at stale
    exact follows orderly comes (@Move.report _ _ alone.quiet _ stale dry)
      ⟨twin.entry, .inr (twin.files.spared orderly.unmoved (untouched ▸ Laid.start))⟩
  | rebuild stale wet =>
    rw [same] at stale
    exact follows orderly comes (@Move.rebuild _ _ alone.quiet _ stale wet)
      ⟨twin.entry, twin.files⟩

omit above in
private theorem follows_refresh (refreshes : phase = .refresh)
    (move : Move (team.tasks worker) team.tools phase state next after) :
    Follows team worker next after := by
  subst refreshes
  have untouched : alone.world.files = team.begun.world.files :=
    (Task.untouched_of_comes comes orderly.noFile).2
  cases move with
  | refreshed done =>
    obtain ⟨count, doneToo⟩ := Freshness.refresh_ok alone.world.now alone.world.files
      (team.tasks worker).artifacts.all
    refine follows orderly comes (@Move.refreshed _ _ alone.quiet count _ (Prod.ext doneToo rfl))
      ⟨twin.entry, .inr ?_⟩
    have spared := twin.files.refresh state.world.now alone.world.now
    rw [done, ← untouched] at spared
    exact spared
  | unrefreshed failed => exact absurd failed Freshness.refresh_ne_error

private theorem follows_prepare (prepares : phase = .prepare)
    (move : Move (team.tasks worker) team.tools phase state next after) :
    Follows team worker next after := by
  subst prepares
  have untouched : alone.world.files = team.begun.world.files :=
    (Task.untouched_of_comes comes orderly.noFile).2
  have maker := orderly.makers worker alone comes
  have same {parent : Path} (top : (team.tasks worker).outputBase.parent? = some parent) :
      (state.world.files.makeDirectories parent).1 =
        (alone.world.files.makeDirectories parent).1 := by
    rw [untouched]
    exact makeDirectories_calm orderly.independent above comes orderly.unmoved maker twin.files rfl
      top
  have calm : team.Calm worker ((team.tasks worker).prepared state.world.files) :=
    fun location owned => (Task.fileAt?_prepared _ _ location).trans (twin.files location owned)
  cases move with
  | prepared made =>
    have madeToo : ∀ parent, (team.tasks worker).outputBase.parent? = some parent →
        (alone.world.files.makeDirectories parent).1 = .ok () :=
      fun parent top => (same top).symm.trans (made parent top)
    exact follows orderly comes (@Move.prepared _ _ alone.quiet madeToo)
      ⟨twin.entry, maker, Task.settled_prepared made, calm⟩
  | unprepared directory failed =>
    have failedToo := (same directory).symm.trans failed
    refine follows orderly comes (@Move.unprepared _ _ alone.quiet _ _ directory failedToo)
      ⟨twin.entry, .inr (calm.spared orderly.unmoved ?_)⟩
    have laid : team.Laid alone.world.files := untouched ▸ Laid.start
    exact laid.prepared maker

private theorem follows_rediscover (rediscovers : phase = .rediscover)
    (move : Move (team.tasks worker) team.tools phase state next after) :
    Follows team worker next after := by
  subst rediscovers
  obtain ⟨maker, -, calm⟩ := twin.files
  have laid : team.Laid alone.world.files :=
    (Task.untouched_of_comes comes orderly.noFile).2 ▸ Laid.start.prepared maker
  have same := discovered_calm orderly.independent above comes orderly.unmoved calm laid
    fun _ => .rediscover
  cases move with
  | rediscovered found =>
    rw [same] at found
    exact follows orderly comes (@Move.rediscovered _ _ alone.quiet _ found)
      ⟨twin.entry, twin.files⟩
  | unrediscovered failed =>
    rw [same] at failed
    exact follows orderly comes (@Move.unrediscovered _ _ alone.quiet _ failed)
      ⟨twin.entry, .inr (calm.spared orderly.unmoved laid)⟩

private theorem follows_expand (expands : phase = .expand)
    (move : Move (team.tasks worker) team.tools phase state next after) :
    Follows team worker next after := by
  subst expands
  obtain ⟨maker, -, calm⟩ := twin.files
  have laid : team.Laid alone.world.files :=
    (Task.untouched_of_comes comes orderly.noFile).2 ▸ Laid.start.prepared maker
  have same := expand_calm orderly.independent above comes orderly.unmoved calm laid rfl
  cases move with
  | expanded done =>
    rw [same] at done
    exact follows orderly comes (@Move.expanded _ _ alone.quiet _ done) ⟨twin.entry, twin.files⟩
  | unexpanded failed =>
    rw [same] at failed
    exact follows orderly comes (@Move.unexpanded _ _ alone.quiet _ failed)
      ⟨twin.entry, .inr (calm.spared orderly.unmoved laid)⟩

/-- A step is the step that the work alone takes. -/
theorem twin_of_move (move : Move (team.tasks worker) team.tools phase state next after) :
    ∃ later, team.Alone worker next later ∧ team.Twin worker next after later := by
  cases phase with
  | lookup => exact follows_lookup orderly comes twin rfl move
  | discover => exact follows_discover orderly above comes twin rfl move
  | judge set => exact follows_judge orderly above comes twin rfl move
  | refresh => exact follows_refresh orderly comes twin rfl move
  | prepare => exact follows_prepare orderly above comes twin rfl move
  | rediscover => exact follows_rediscover orderly above comes twin rfl move
  | expand => exact follows_expand orderly above comes twin rfl move
  | write text => exact follows_write orderly above comes twin rfl move
  | run stage => exact follows_run orderly above comes twin rfl move
  | finished result => cases move
  | store set =>
    -- What is stored under the key of the command does not depend on the rest of the store.
    cases move
    refine follows orderly comes (@Move.store _ _ alone.quiet set) ⟨?_, twin.files⟩
    rw [DependencyStore.find?_insert_self]
    exact DependencyStore.find?_insert_self.symm
  | restore set =>
    cases move
    refine follows orderly comes (@Move.restore _ _ alone.quiet set) ⟨?_, twin.files⟩
    rw [DependencyStore.find?_insert_self]
    exact DependencyStore.find?_insert_self.symm

theorem file?_of_finished {result : Except BuildFailure Outcome} (ended : phase = .finished result)
    {artifact : Path} (member : artifact ∈ (team.tasks worker).artifacts.all) :
    (state.world.files.file? artifact).map (File.stamped 0) =
      (alone.world.files.file? artifact).map (File.stamped 0) := by
  subst ended
  rcases twin.files with written | spared
  · have halts := written.place artifact member base above.laid .target
    rw [Task.prepared_of_settled (written.settled.framed above.framed), ← above.framed.halt,
      ← written.framed.halt] at halts
    have leads : alone.world.files.outlet? artifact = state.world.files.outlet? artifact := by
      ext location
      unfold FileSystem.outlet?
      rw [FileSystem.outlet_locate_eq_some, FileSystem.outlet_locate_eq_some, halts]
    rw [FileSystem.file?, FileSystem.file?, leads]
    cases here : state.world.files.outlet? artifact with
    | none => rfl
    | some location => exact written.own location (above.owned member here)
  · rw [spared.artifact artifact member, ← orderly.unmoved.artifact worker artifact member base
      above.laid]
    refine FileSystem.file?_timeless above.framed fun location leads => ?_
    rw [spared.own location (above.owned member leads), above.laid.fileAt?]

end

variable [DecidableEq ι] {phases : ι → Phase}

/-- Whatever the interleaving, each command is where it comes alone. -/
theorem twins_of_reaches (orderly : team.Orderly) (reaches : team.Reaches phases state) :
    state.fileLevel = none ∧ (∃ base, team.Over base state.world.files) ∧
      ∀ worker, ∃ alone, team.Alone worker (phases worker) alone ∧
        team.Twin worker (phases worker) state alone := by
  induction reaches with
  | start =>
    exact ⟨orderly.noFile, ⟨_, over_start⟩, fun worker =>
      ⟨team.begun, .start, rfl, fun _ _ => rfl⟩⟩
  | @step phases state earlier worker running ih =>
    obtain ⟨quiet, ⟨base, now⟩, twins⟩ := ih
    have above : team.Over base state.quiet.world.files := now
    have move := @Task.move_of_step (team.tasks worker) team.tools (phases worker) state quiet running
    have makes : phases worker = .prepare → team.makers worker := by
      intro prepares
      obtain ⟨alone, comes, _⟩ := twins worker
      exact orderly.makers worker alone (prepares ▸ comes)
    obtain ⟨changes, later⟩ := changes_of_move orderly.confined makes move above
    refine ⟨move.fileLevel.trans quiet, later, fun other => ?_⟩
    obtain ⟨alone, comes, same⟩ := twins other
    have twin : team.Twin other (phases other) state.quiet alone := ⟨same.entry, same.files⟩
    by_cases own : other = worker
    · subst own
      rw [Function.update_self]
      obtain ⟨last, comesToo, twinToo⟩ := twin_of_move orderly above comes twin move
      exact ⟨last, comesToo, twinToo.entry, twinToo.files⟩
    · rw [Function.update_of_ne own]
      have aside := twin.aside orderly.independent own changes
      exact ⟨alone, comes, aside.entry, aside.files⟩

theorem process_of_reaches (orderly : team.Orderly) (reaches : team.Reaches phases state)
    {result : Except BuildFailure Outcome} (ended : phases worker = .finished result) :
    let alone := (team.tasks worker).process team.tools team.begun
    result = alone.1 ∧
      (∀ artifact ∈ (team.tasks worker).artifacts.all,
        (state.world.files.file? artifact).map File.contents =
          (alone.2.world.files.file? artifact).map File.contents) ∧
      state.cache.find? (team.tasks worker).key = alone.2.cache.find? (team.tasks worker).key := by
  obtain ⟨_, ⟨base, above⟩, twins⟩ := twins_of_reaches orderly reaches
  obtain ⟨alone, comes, twin⟩ := twins worker
  rw [ended] at comes twin
  rw [Task.Comes.process comes]
  refine ⟨rfl, fun artifact member => ?_, twin.entry⟩
  have same := file?_of_finished orderly above comes twin rfl member
  have contents := congrArg (Option.map File.contents) same
  simpa [Option.map_map, Function.comp_def, File.stamped] using contents

/-- The next step of a command is the move that there is. -/
theorem Reaches.move (reaches : team.Reaches (Function.update phases worker phase) state)
    {now : BuildState} (same : state.quiet = now) (noFile : now.fileLevel = none)
    (move : Move (team.tasks worker) team.tools phase now next after) :
    ∃ later, team.Reaches (Function.update phases worker next) later ∧ later.quiet = after := by
  subst same
  have step := @Task.move_of_step (team.tasks worker) team.tools phase state noFile move.running
  obtain ⟨rfl, rfl⟩ := step.unique move
  have next := reaches.step worker (by rw [Function.update_self]; exact move.running)
  rw [Function.update_self, Function.update_idem] at next
  exact ⟨_, next, rfl⟩

/-- A command that waits may be worked on for some time with nothing in between. -/
theorem Reaches.comes (reaches : team.Reaches phases state) (waits : phases worker = .lookup)
    (comes : Task.Comes (team.tasks worker) team.tools state phase after) :
    team.Reaches (Function.update phases worker phase) after := by
  induction comes with
  | start => rwa [← waits, Function.update_eq_self]
  | step earlier running ih =>
    have step := ih.step worker (by rwa [Function.update_self])
    rwa [Function.update_self, Function.update_idem] at step

/-- Or from its beginning to its end. -/
theorem Reaches.process (reaches : team.Reaches phases state) (waits : phases worker = .lookup) :
    team.Reaches
      (Function.update phases worker
        (.finished ((team.tasks worker).process team.tools state).1))
      ((team.tasks worker).process team.tools state).2 :=
  reaches.comes waits (Task.comes_process _ _ _)

theorem waits_next {count index : Nat} {phases : Fin count → Phase} (within : index < count)
    (waits : ∀ worker, index ≤ worker.val → phases worker = .lookup) (phase : Phase) :
    ∀ worker, index + 1 ≤ worker.val →
      Function.update phases ⟨index, within⟩ phase worker = .lookup := by
  intro worker beyond
  have other : worker ≠ ⟨index, within⟩ := by
    rintro rfl
    exact Nat.not_succ_le_self _ beyond
  rw [Function.update_of_ne other]
  exact waits worker (Nat.le_of_succ_le beyond)

end ShaderBuild.Team
