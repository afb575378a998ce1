import ShaderBuild.Proofs.Build.Ready
/-!
Commands that are up to date. However the work on them is interleaved, it only gives the artifacts new
times, and so leaves them up to date, as does saving the dependencies to a place of their own.
-/
namespace ShaderBuild

open FileSystem (Advances Recent)
open ShaderBuild.Task (Phase Move)

/-- Nothing has changed but times, to ones from the bound on, and those of artifacts alone. -/
structure BuildState.Rests (bound : Instant) (artifacts : List Path) (before after : BuildState) :
    Prop where
  clock : after.world.clock = before.world.clock
  ticks : before.world.ticks ≤ after.world.ticks
  framed : before.world.files.Framed after.world.files
  files : Advances bound artifacts before.world.files after.world.files
  timeless : ∀ location, (before.world.files.fileAt? location).map (File.stamped 0) =
    (after.world.files.fileAt? location).map (File.stamped 0)
  cache : after.cache = before.cache
  launches : after.launches = before.launches

namespace BuildState.Rests

variable {bound : Instant} {artifacts : List Path} {first second third : BuildState}

theorem refl (state : BuildState) : Rests bound artifacts state state :=
  ⟨rfl, Nat.le_refl _, .refl _, .refl _, fun _ => rfl, rfl, rfl⟩

theorem trans (once : Rests bound artifacts first second) (again : Rests bound artifacts second third) :
    Rests bound artifacts first third :=
  ⟨again.clock.trans once.clock, Nat.le_trans once.ticks again.ticks, once.framed.trans again.framed,
    once.files.trans again.files,
    fun location => (once.timeless location).trans (again.timeless location),
    again.cache.trans once.cache, again.launches.trans once.launches⟩

/-- Artifacts keep their contents. -/
theorem contents (rests : Rests bound artifacts first second) (path : Path) :
    (second.world.files.file? path).map File.contents =
      (first.world.files.file? path).map File.contents := by
  have same := @FileSystem.file?_timeless _ _ path rests.framed
    fun location _ => rests.timeless location
  have contents := congrArg (Option.map File.contents) same
  simpa [Option.map_map, Function.comp_def, File.stamped] using contents.symm

end BuildState.Rests

/-- A command of a list whose dialect has no colon. -/
def ShaderCommand.Portable (command : ShaderCommand) : Prop :=
  (∃ line number, ShaderCommand.parse line number = .ok command) ∧ ':' ∉ command.dialect

namespace Run

/-- The artifacts of all commands. -/
def artifacts (run : Run) (commands : List ShaderCommand) : List Path :=
  commands.flatMap fun command => (run.task command).artifacts.all

variable {run next : Run} {commands : List ShaderCommand} {bound : Instant} {beside own : Location}

theorem artifacts_subset {command : ShaderCommand} (member : command ∈ commands) :
    (run.task command).artifacts.all ⊆ run.artifacts commands :=
  fun _ listed => List.mem_flatMap.mpr ⟨command, member, listed⟩

/-- Where the path leads there is no artifact and not the snapshot, and a file only from before the
bound. -/
def Behind (run : Run) (commands : List ShaderCommand) (bound : Instant) (own : Location)
    (files : FileSystem) (path : Path) : Prop :=
  ∀ location, files.outlet? path = some location → location ≠ own ∧
    (∀ artifact ∈ run.artifacts commands, files.outlet? artifact ≠ some location) ∧
    ∀ file, files.fileAt? location = some file → file.modified < bound

/-- Runs that only give new times to artifacts change nothing of it. -/
theorem Behind.rests {state after : BuildState} {path : Path}
    (behind : run.Behind commands bound own state.world.files path)
    (rests : BuildState.Rests bound (run.artifacts commands) state after) :
    run.Behind commands bound own after.world.files path := by
  intro location leads
  rw [← rests.framed.outlet?] at leads
  obtain ⟨other, apart, old⟩ := behind location leads
  have apartToo : ∀ artifact ∈ run.artifacts commands,
      after.world.files.outlet? artifact ≠ some location := by
    intro artifact member
    rw [← rests.framed.outlet?]
    exact apart artifact member
  refine ⟨other, apartToo, fun file there => ?_⟩
  rcases rests.files.new location file there with same | ⟨artifact, member, leadsToo⟩
  · exact old file same
  · exact absurd leadsToo (apartToo artifact member)

/-- All commands are up to date: their artifacts are there and at least as new as the bound, what they
depend on is known and older. The snapshot has its locations, and no artifact is there. -/
structure Current (run : Run) (commands : List ShaderCommand) (bound : Instant)
    (beside own : Location) (world : World) (cache : DependencyStore) : Prop where
  steady : world.Steady
  past : bound ≤ world.now
  seat : Snapshot.Seated world.files run.settings.cachePath beside own
  recent : Recent bound world.files (run.artifacts commands)
  aside : ∀ artifact ∈ run.artifacts commands, ∀ location,
    world.files.outlet? artifact = some location → location ≠ beside ∧ location ≠ own
  known : ∀ command ∈ commands, ∃ set, cache.find? (run.task command).key = some set ∧
    ∀ path ∈ set.paths, run.Behind commands bound own world.files path

namespace Current

variable {world : World} {cache : DependencyStore} {state after : BuildState}

/-- Runs that only give new times to artifacts leave the commands up to date. -/
theorem rests (current : run.Current commands bound beside own state.world state.cache)
    (rests : BuildState.Rests bound (run.artifacts commands) state after) :
    run.Current commands bound beside own after.world after.cache := by
  refine ⟨?_, ?_, current.seat.framed rests.framed, rests.files.recent current.recent, ?_, ?_⟩
  · unfold World.Steady
    rw [rests.clock]
    exact current.steady
  · refine Int.le_trans current.past ?_
    unfold World.now
    rw [rests.clock]
    exact current.steady _ _ rests.ticks
  · intro artifact member location leads
    exact current.aside artifact member location ((rests.framed.outlet? artifact).trans leads)
  · intro command member
    obtain ⟨set, known, behind⟩ := current.known command member
    exact ⟨set, rests.cache ▸ known, fun path listed => (behind path listed).rests rests⟩

/-- Saving leaves the commands up to date. -/
theorem published {saved : World} (current : run.Current commands bound beside own world cache)
    (published : Snapshot.Published beside own world saved) :
    run.Current commands bound beside own saved cache := by
  have outlets (path : Path) := published.framed.outlet? path
  refine ⟨?_, ?_, current.seat.framed published.framed, ?_, ?_, ?_⟩
  · unfold World.Steady
    rw [published.clock]
    exact current.steady
  · refine Int.le_trans current.past ?_
    unfold World.now
    rw [published.clock]
    exact current.steady _ _ published.ticks
  · intro artifact member
    obtain ⟨file, found, new⟩ := current.recent artifact member
    exact ⟨file, (published.file? (current.aside artifact member)).trans found, new⟩
  · intro artifact member location leads
    exact current.aside artifact member location ((outlets artifact).trans leads)
  · intro command member
    obtain ⟨set, known, behind⟩ := current.known command member
    refine ⟨set, known, fun path listed location leads => ?_⟩
    rw [← outlets] at leads
    obtain ⟨other, apart, old⟩ := behind path listed location leads
    refine ⟨other, fun artifact member => by rw [← outlets]; exact apart artifact member,
      fun file there => old file ?_⟩
    rw [published.file location other] at there
    split at there
    · cases there
    · exact there

/-- The artifacts of a command are not stale. -/
theorem isStale {set : PathSet} {command : ShaderCommand}
    (current : run.Current commands bound beside own world cache)
    (unforced : run.settings.force = false) (member : command ∈ commands)
    (behind : ∀ path ∈ set.paths, run.Behind commands bound own world.files path) :
    (run.task command).isStale world.files set = false := by
  rw [Task.isStale, Bool.or_eq_false_iff, Freshness.filesStale_eq_false_iff]
  refine ⟨unforced, by simp [Artifacts.all], fun artifact listed => ?_⟩
  obtain ⟨made, found, new⟩ := current.recent artifact (artifacts_subset member listed)
  refine ⟨made, found, fun path known file there => ?_⟩
  obtain ⟨location, leads, stands⟩ := FileSystem.file?_eq_some.mp there
  exact Int.lt_of_lt_of_le ((behind path known location leads).2.2 file stands) new

end Current

/-- Where the work on a command stands that is up to date. -/
def Idle (run : Run) (commands : List ShaderCommand) (bound : Instant) (own : Location)
    (files : FileSystem) : Phase → Prop
  | .lookup | .refresh => True
  | .judge set => ∀ path ∈ set.paths, run.Behind commands bound own files path
  | .finished result => result = .ok .upToDate
  | _ => False

variable {command : ShaderCommand} {phase following : Phase} {state after : BuildState}

theorem Idle.rests (idle : run.Idle commands bound own state.world.files phase)
    (rests : BuildState.Rests bound (run.artifacts commands) state after) :
    run.Idle commands bound own after.world.files phase := by
  cases phase with
  | judge set => exact fun path listed => (idle path listed).rests rests
  | _ => exact idle

/-- A step of the work on a command that is up to date. -/
theorem idle_of_move (unforced : run.settings.force = false) (member : command ∈ commands)
    (current : run.Current commands bound beside own state.world state.cache)
    (move : Move (run.task command) run.tools phase state following after)
    (idle : run.Idle commands bound own state.world.files phase) :
    BuildState.Rests bound (run.artifacts commands) state after ∧
      run.Idle commands bound own after.world.files following := by
  have stale {set : PathSet} (behind : run.Idle commands bound own state.world.files (.judge set)) :=
    current.isStale unforced member behind
  obtain ⟨known, found, behind⟩ := current.known command member
  cases move with
  | hit is =>
    obtain rfl := Option.some.inj (is.symm.trans found)
    exact ⟨.refl _, behind⟩
  | miss unknown => simp [found] at unknown
  | fresh => exact ⟨.refl _, trivial⟩
  | report is => simp [stale idle] at is
  | rebuild is => simp [stale idle] at is
  | @refreshed _ count files done =>
    have retimed := Freshness.retimed_refresh state.world.now state.world.files
      (run.task command).artifacts.all
    have advances := @Advances.refresh bound state.world.now (run.artifacts commands)
      (run.task command).artifacts.all state.world.files (artifacts_subset member) current.past
    rw [done] at retimed advances
    exact ⟨⟨rfl, Nat.le_succ _, retimed.framed, advances,
      fun location => (retimed.timeless location).symm, rfl, rfl⟩, rfl⟩
  | unrefreshed failed => exact absurd failed Freshness.refresh_ne_error
  | _ => exact idle.elim

variable {begun : BuildState} {phases : Fin commands.length → Phase}

/-- However the work on commands that are up to date is interleaved, they are left so. -/
theorem idle_of_reaches (noFile : begun.fileLevel = none) (unforced : run.settings.force = false)
    (current : run.Current commands bound beside own begun.world begun.cache)
    (reaches : (run.crew commands begun).Reaches phases state) :
    state.fileLevel = none ∧ BuildState.Rests bound (run.artifacts commands) begun state ∧
      ∀ worker, run.Idle commands bound own state.world.files (phases worker) := by
  induction reaches with
  | start => exact ⟨noFile, .refl _, fun _ => trivial⟩
  | @step phases state earlier worker running ih =>
    obtain ⟨quiet, rests, idle⟩ := ih
    have move := @Task.move_of_step (run.task commands[worker]) run.tools (phases worker) state quiet
      running
    have here : run.Current commands bound beside own state.world state.cache := current.rests rests
    obtain ⟨once, there⟩ := @idle_of_move run commands bound beside own commands[worker] _ _
      state.quiet _ unforced (List.getElem_mem _) here move (idle worker)
    have step : BuildState.Rests bound (run.artifacts commands) state
        ((run.task commands[worker]).step run.tools (phases worker) state).2 :=
      ⟨once.clock, once.ticks, once.framed, once.files, once.timeless, once.cache, once.launches⟩
    refine ⟨move.fileLevel.trans quiet, rests.trans step, fun other => ?_⟩
    by_cases same : other = worker
    · subst same
      rw [Function.update_self]
      exact there
    · rw [Function.update_of_ne same]
      exact (idle other).rests step

end Run

end ShaderBuild
