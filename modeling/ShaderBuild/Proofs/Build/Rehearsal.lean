import ShaderBuild.Proofs.Build.Endings
import ShaderBuild.Proofs.Build.Steps
import ShaderBuild.Proofs.Dependency.Saving
/-!
Dry runs. No program is started and nothing is rebuilt; on disk only the snapshot of the known
dependencies is written, and artifacts that are not stale are given the present time.
-/
namespace ShaderBuild

open FileSystem (Noted)
open BuildState (Annotated)
open ShaderBuild.Task (Phase)

namespace Task

variable {task : Task} {tools : Tools} {phase : Phase} {state : BuildState}

/-- Where the work on a command may stand in a dry run. -/
def Phase.Dry : Phase → Prop
  | .lookup | .discover | .store _ | .judge _ | .refresh => True
  | .finished result => result ≠ .ok .rebuilt
  | _ => False

/-- What a step of a dry run does that refreshes nothing: it logs, and comes to the refreshing only from
a judgement that the artifacts are not stale. -/
structure Rehearses (task : Task) (phase : Phase) (state : BuildState) (next : Phase × BuildState) :
    Prop where
  dry : next.1.Dry
  annotated : Annotated state next.2
  judged : next.1 = .refresh → ∃ set, phase = .judge set ∧
    task.isStale state.world.files set = false

private theorem rehearses_discover :
    task.Rehearses .discover state (task.stepDiscover .store state) := by
  have annotated := Annotated.expanding state
    (ShaderBuild.discover state.world.files task.searchPath task.source task.headers)
  unfold stepDiscover
  revert annotated
  generalize state.expanding _ = found
  obtain ⟨outcome, after⟩ := found
  intro annotated
  cases outcome with
  | ok set => exact ⟨trivial, annotated, nofun⟩
  | error problem => exact ⟨nofun, annotated, nofun⟩

private theorem rehearses_judge (dry : task.settings.dryRun = true) (set : PathSet) :
    task.Rehearses (.judge set) state (task.stepJudge set state) := by
  unfold stepJudge
  by_cases stale : task.isStale state.world.files set = true
  · rw [if_pos stale, if_pos dry]
    exact ⟨nofun, .record state _, nofun⟩
  · rw [if_neg stale]
    exact ⟨trivial, .refl state, fun _ => ⟨set, rfl, by simpa using stale⟩⟩

theorem rehearses_step (dry : task.settings.dryRun = true) (rehearsing : phase.Dry)
    (other : phase ≠ .refresh) : task.Rehearses phase state (task.step tools phase state) := by
  cases phase with
  | lookup =>
    change task.Rehearses .lookup state (task.stepLookup state)
    unfold stepLookup
    split <;> exact ⟨trivial, .record state _, nofun⟩
  | discover => exact rehearses_discover
  | store set => exact ⟨trivial, ⟨rfl, rfl, .refl _, fun _ => .same _⟩, nofun⟩
  | judge set => exact rehearses_judge dry set
  | refresh => exact absurd rfl other
  | finished result => exact ⟨rehearsing, .refl state, nofun⟩
  | _ => exact rehearsing.elim

end Task

theorem Freshness.node?_refresh (now : Instant) (files : FileSystem) (paths : List Path)
    (location : Location) :
    (refresh now files paths).2.node? location = files.node? location ∨
      ∃ path ∈ paths, files.outlet? path = some location ∧ ∃ file,
        files.node? location = some (.file file) ∧
        (refresh now files paths).2.node? location = some (.file (file.stamped now)) := by
  have retimed := retimed_refresh now files paths
  have still : (refresh now files paths).2.fileAt? location = files.fileAt? location →
      (refresh now files paths).2.node? location = files.node? location := by
    intro same
    rw [FileSystem.node?_eq, ← retimed.framed.frame, same, ← FileSystem.node?_eq]
  by_cases own : ∃ path ∈ paths, files.outlet? path = some location
  · rcases retimed.file location with same | changed
    · exact .inl (still same)
    · cases there : files.fileAt? location with
      | none => exact .inl (still (by rw [changed, there, Option.map_none]))
      | some file =>
        obtain ⟨path, member, leads⟩ := own
        rw [there, Option.map_some] at changed
        exact .inr ⟨path, member, leads, file, FileSystem.node?_eq_file there,
          FileSystem.node?_eq_file changed⟩
  · exact .inl (still (fileAt?_refresh fun path member leads => own ⟨path, member, leads⟩))

namespace Team

variable {ι : Type} [DecidableEq ι] (team : Team ι)

/-- The steps lead on from one point of the work to another. -/
inductive Onward (phases : ι → Phase) (state : BuildState) : (ι → Phase) → BuildState → Prop where
  | here : Onward phases state phases state
  | step {later : ι → Phase} {now : BuildState} (earlier : Onward phases state later now)
      (worker : ι) (running : (later worker).result? = none) :
      Onward phases state
        (Function.update later worker ((team.tasks worker).step team.tools (later worker) now).1)
        ((team.tasks worker).step team.tools (later worker) now).2

/-- On the way to this point the artifacts of the command were judged not to be stale. -/
def Passed (worker : ι) (phases : ι → Phase) (state : BuildState) : Prop :=
  ∃ before earlier set, team.Reaches before earlier ∧ before worker = .judge set ∧
    (team.tasks worker).isStale earlier.world.files set = false ∧
    team.Onward before earlier phases state

/-- After that its artifacts were refreshed, when the clock showed this time, and the command is up to
date. -/
def Refreshed (worker : ι) (time : Instant) (phases : ι → Phase) (state : BuildState) : Prop :=
  phases worker = .finished (.ok .upToDate) ∧ ∃ before earlier, team.Passed worker before earlier ∧
    before worker = .refresh ∧ earlier.world.now = time ∧ team.Onward before earlier phases state

/-- What a dry run makes of a location before the dependencies are saved: a file that keeps the log is
written, and an artifact of a command that is not stale has the time of its refreshing. -/
inductive Touched (phases : ι → Phase) (state : BuildState) (location : Location) :
    Option Node → Option Node → Prop where
  | noted {before after : Option Node} (noted : Noted team.begun.fileLevel before after) :
      Touched phases state location before after
  | refreshed {worker : ι} {artifact : Path} {time : Instant} (file : File)
      (member : artifact ∈ (team.tasks worker).artifacts.all)
      (leads : team.begun.world.files.outlet? artifact = some location)
      (course : team.Refreshed worker time phases state) :
      Touched phases state location (some (.file file)) (some (.file (file.stamped time)))

/-- What holds at every point of a dry run before the dependencies are saved. -/
structure Rehearsing (phases : ι → Phase) (state : BuildState) : Prop where
  launches : state.launches = team.begun.launches
  fileLevel : state.fileLevel = team.begun.fileLevel
  framed : team.begun.world.files.Framed state.world.files
  dry : ∀ worker, (phases worker).Dry
  passed : ∀ worker, phases worker = .refresh → team.Passed worker phases state
  node : ∀ location, team.Touched phases state location
    (team.begun.world.files.node? location) (state.world.files.node? location)

variable {team} {phases : ι → Phase} {state : BuildState} {worker other : ι} {time : Instant}
  {location : Location} {before middle after : Option Node}

section

variable (running : (phases other).result? = none)
include running

theorem Passed.step (passed : team.Passed worker phases state) : team.Passed worker
    (Function.update phases other ((team.tasks other).step team.tools (phases other) state).1)
    ((team.tasks other).step team.tools (phases other) state).2 := by
  obtain ⟨first, earlier, set, reaches, judged, current, onward⟩ := passed
  exact ⟨first, earlier, set, reaches, judged, current, onward.step other running⟩

theorem Refreshed.step (refreshed : team.Refreshed worker time phases state) :
    team.Refreshed worker time
      (Function.update phases other ((team.tasks other).step team.tools (phases other) state).1)
      ((team.tasks other).step team.tools (phases other) state).2 := by
  obtain ⟨ended, first, earlier, passed, due, shown, onward⟩ := refreshed
  refine ⟨?_, first, earlier, passed, due, shown, onward.step other running⟩
  rw [Function.update_of_ne, ended]
  rintro rfl
  rw [ended] at running
  cases running

theorem Touched.step (touched : team.Touched phases state location before after) :
    team.Touched
      (Function.update phases other ((team.tasks other).step team.tools (phases other) state).1)
      ((team.tasks other).step team.tools (phases other) state).2 location before after := by
  cases touched with
  | noted noted => exact .noted noted
  | refreshed file member leads course => exact .refreshed file member leads (course.step running)

end

theorem Touched.trans_noted (touched : team.Touched phases state location before middle)
    (noted : Noted team.begun.fileLevel middle after) :
    team.Touched phases state location before after := by
  cases touched with
  | noted first => exact .noted (first.trans noted)
  | refreshed file member leads course =>
    cases noted with
    | same => exact .refreshed file member leads course
    | added kept keeps still => exact .noted (.added kept keeps still)

theorem Touched.noted_trans (noted : Noted team.begun.fileLevel before middle)
    (touched : team.Touched phases state location middle after) :
    team.Touched phases state location before after := by
  cases touched with
  | noted last => exact .noted (noted.trans last)
  | refreshed file member leads course =>
    cases noted with
    | same => exact .refreshed file member leads course
    | added kept keeps still => exact .noted (.added kept keeps still)

/-- A file that was touched may be refreshed. -/
theorem Touched.refresh {artifact : Path} {file : File}
    (touched : team.Touched phases state location before (some (.file file)))
    (member : artifact ∈ (team.tasks worker).artifacts.all)
    (leads : team.begun.world.files.outlet? artifact = some location)
    (course : team.Refreshed worker time phases state) :
    team.Touched phases state location before (some (.file (file.stamped time))) := by
  cases touched with
  | noted noted =>
    cases noted with
    | same => exact .refreshed file member leads course
    | added kept keeps still => exact .noted (.added kept keeps still)
  | refreshed first _ _ _ => exact .refreshed first member leads course

namespace Rehearsing

private theorem annotate (rehearsing : team.Rehearsing phases state)
    (reaches : team.Reaches phases state) (running : (phases other).result? = none)
    (rehearses : (team.tasks other).Rehearses (phases other) state
      ((team.tasks other).step team.tools (phases other) state)) :
    team.Rehearsing
      (Function.update phases other ((team.tasks other).step team.tools (phases other) state).1)
      ((team.tasks other).step team.tools (phases other) state).2 := by
  have annotated := rehearses.annotated
  refine ⟨annotated.launches.trans rehearsing.launches,
    annotated.fileLevel.trans rehearsing.fileLevel, rehearsing.framed.trans annotated.framed,
    (Function.forall_update_iff phases fun _ phase => phase.Dry).mpr
      ⟨rehearses.dry, fun worker _ => rehearsing.dry worker⟩,
    (Function.forall_update_iff phases fun worker phase => phase = .refresh →
      team.Passed worker _ _).mpr ⟨fun due => ?_, fun worker _ due =>
        (rehearsing.passed worker due).step running⟩, fun location => ?_⟩
  · obtain ⟨set, judged, current⟩ := rehearses.judged due
    exact ⟨phases, state, set, reaches, judged, current, Onward.here.step other running⟩
  · refine ((rehearsing.node location).step running).trans_noted ?_
    exact rehearsing.fileLevel ▸ annotated.node location

private theorem refresh (rehearsing : team.Rehearsing phases state) (due : phases other = .refresh) :
    team.Rehearsing
      (Function.update phases other ((team.tasks other).step team.tools (phases other) state).1)
      ((team.tasks other).step team.tools (phases other) state).2 := by
  have running : (phases other).result? = none := by rw [due]; rfl
  obtain ⟨ended, annotated⟩ := (team.tasks other).step_refresh team.tools state
  rw [← due] at ended annotated
  have retimed := Freshness.retimed_refresh state.world.now state.world.files
    (team.tasks other).artifacts.all
  have course : team.Refreshed other state.world.now
      (Function.update phases other ((team.tasks other).step team.tools (phases other) state).1)
      ((team.tasks other).step team.tools (phases other) state).2 := by
    refine ⟨?_, phases, state, rehearsing.passed other due, due, rfl, Onward.here.step other running⟩
    rw [Function.update_self, ended]
  refine ⟨annotated.launches.trans rehearsing.launches,
    annotated.fileLevel.trans rehearsing.fileLevel,
    (rehearsing.framed.trans retimed.framed).trans annotated.framed,
    (Function.forall_update_iff phases fun _ phase => phase.Dry).mpr
      ⟨ended ▸ nofun, fun worker _ => rehearsing.dry worker⟩,
    (Function.forall_update_iff phases fun worker phase => phase = .refresh →
      team.Passed worker _ _).mpr ⟨ended ▸ nofun, fun worker _ dueToo =>
        (rehearsing.passed worker dueToo).step running⟩, fun location => ?_⟩
  · have touched := (rehearsing.node location).step running
    refine Touched.trans_noted ?_ (rehearsing.fileLevel ▸ annotated.node location)
    rcases Freshness.node?_refresh state.world.now state.world.files
      (team.tasks other).artifacts.all location with
      same | ⟨artifact, member, leads, file, there, stamped⟩
    · exact same ▸ touched
    · rw [there] at touched
      exact stamped ▸ touched.refresh member ((rehearsing.framed.outlet? _).trans leads) course

end Rehearsing

theorem rehearsing_of_reaches (dry : ∀ worker, (team.tasks worker).settings.dryRun = true)
    (reaches : team.Reaches phases state) : team.Rehearsing phases state := by
  induction reaches with
  | start =>
    exact ⟨rfl, rfl, .refl _, fun _ => trivial, nofun, fun _ => .noted (.same _)⟩
  | @step phases state earlier worker running ih =>
    by_cases due : phases worker = .refresh
    · exact ih.refresh due
    · exact ih.annotate earlier running (Task.rehearses_step (dry worker) (ih.dry worker) due)

end Team

namespace Run

/-- The state in which the work on the commands begins. -/
def announced (run : Run) (commands : List ShaderCommand) (state : BuildState) : BuildState :=
  state.note .info .orchestration
    s!"Processing {commands.length} shader command(s) ({run.manner})"

/-- What comes after the work: the dependencies are saved, and a report is logged. -/
def conclude (run : Run) (result : Except BuildFailure RunReport) (state : BuildState) :
    Except BuildFailure RunReport × BuildState :=
  match run.save result state with
  | (.ok report, state) => (.ok report, state.note .info .orchestration report.summary)
  | (.error problem, state) => (.error problem, state)

theorem runCommands_eq_conclude (run : Run) (commands : List ShaderCommand) (state : BuildState) :
    run.runCommands commands state =
      run.conclude (run.work commands (run.announced commands state)).1
        (run.work commands (run.announced commands state)).2 :=
  rfl

/-- What a dry run makes of a location: what its work makes of it, a directory that is made for the
snapshot, or, at the places of saving, anything but a directory. -/
inductive Altered (run : Run) (commands : List ShaderCommand) (begun : BuildState)
    (phases : Fin commands.length → Phase) (middle : BuildState) (location : Location) :
    Option Node → Option Node → Prop where
  | touched {before after : Option Node}
      (touched : (run.crew commands (run.announced commands begun)).Touched phases middle location
        before after) :
      Altered run commands begun phases middle location before after
  | made {directory : Path} (wanted : directory ∈ Snapshot.directories run.settings.cachePath)
      (leads : (Snapshot.prepare middle.world run.settings.cachePath).2.files.locate .target
        directory = .ok (.occupied location .directory)) :
      Altered run commands begun phases middle location none (some .directory)
  | saved {before after : Option Node}
      (place : Snapshot.Places (Snapshot.prepare middle.world run.settings.cachePath).2.files
        run.settings.cachePath location)
      (leaf : before ≠ some .directory) (leafToo : after ≠ some .directory) :
      Altered run commands begun phases middle location before after

/-- How a run has ended whose work came to the phases and the middle state: no program was started,
nothing was rebuilt, and on disk nothing happened but what dry runs do. -/
structure Rehearsed (run : Run) (commands : List ShaderCommand) (begun : BuildState)
    (phases : Fin commands.length → Phase) (middle : BuildState)
    (ended : Except BuildFailure RunReport × BuildState) : Prop where
  launches : ended.2.launches = begun.launches
  outcome : ∀ worker, phases worker ≠ .finished (.ok .rebuilt)
  report : ∀ report, ended.1 = .ok report → ∀ entry ∈ report.commands, entry.2 ≠ .rebuilt
  node : ∀ location, run.Altered commands begun phases middle location
    (begun.world.files.node? location) (ended.2.world.files.node? location)

variable {run : Run} {commands : List ShaderCommand} {begun middle : BuildState}
  {phases : Fin commands.length → Phase} {result : Except BuildFailure RunReport}

private theorem annotated_conclude (result : Except BuildFailure RunReport) (middle : BuildState) :
    Annotated { middle with
        world := (Snapshot.save middle.cache middle.world run.settings.cachePath).value.2 }
      (run.conclude result middle).2 := by
  unfold conclude save
  dsimp only
  generalize Snapshot.save middle.cache middle.world run.settings.cachePath = saved
  obtain ⟨⟨answer, world⟩, log⟩ := saved
  have recorded := Annotated.record { middle with world := world } log
  cases answer with
  | ok =>
    cases result with
    | ok report => exact recorded.trans (.record _ _)
    | error problem => exact recorded
  | error problem =>
    cases result with
    | ok report => exact recorded
    | error first => exact recorded.trans (.record _ _)

private theorem report_of_conclude {report : RunReport}
    (done : (run.conclude result middle).1 = .ok report) : result = .ok report := by
  unfold conclude at done
  cases saved : run.save result middle with
  | mk answer final =>
    rw [saved] at done
    cases answer with
    | error problem => cases done
    | ok listed =>
      obtain rfl := Except.ok.inj done
      exact (saved_of_save saved).1

private theorem altered_of_saves {location : Location} {before between after : Option Node}
    (touched : (run.crew commands (run.announced commands begun)).Touched phases middle location
      before between)
    (saves : Snapshot.Saves (Snapshot.prepare middle.world run.settings.cachePath).2.files
      run.settings.cachePath location between after) :
    run.Altered commands begun phases middle location before after := by
  cases saves with
  | same => exact .touched touched
  | made wanted leads =>
    cases touched with
    | noted noted =>
      cases noted
      exact .made wanted leads
  | written place leaf leafToo =>
    refine .saved place (fun directory => ?_) leafToo
    subst directory
    cases touched with
    | noted noted =>
      cases noted
      exact leaf rfl

private theorem Altered.trans_noted {location : Location} {before between after : Option Node}
    (altered : run.Altered commands begun phases middle location before between)
    (noted : Noted begun.fileLevel between after) :
    run.Altered commands begun phases middle location before after := by
  cases altered with
  | touched touched => exact .touched (touched.trans_noted noted)
  | made wanted leads =>
    cases noted
    exact .made wanted leads
  | saved place leaf leafToo =>
    refine .saved place leaf fun directory => ?_
    subst directory
    cases noted
    exact leafToo rfl

private theorem rehearsed_of_reaches (dry : run.settings.dryRun = true)
    (reaches : (run.crew commands (run.announced commands begun)).Reaches phases middle)
    (lists : ∀ report, result = .ok report → ∀ entry ∈ report.commands,
      ∃ worker, phases worker = .finished (.ok entry.2)) :
    run.Rehearsed commands begun phases middle (run.conclude result middle) := by
  have rehearsing := Team.rehearsing_of_reaches (fun _ => dry) reaches
  have announces : Annotated begun (run.announced commands begun) := .record begun _
  have concludes := @annotated_conclude run result middle
  have unbuilt : ∀ worker, phases worker ≠ .finished (.ok .rebuilt) := by
    intro worker ended
    have dry := rehearsing.dry worker
    rw [ended] at dry
    exact dry rfl
  refine ⟨?_, unbuilt, fun report done entry member rebuilt => ?_, fun location => ?_⟩
  · exact concludes.launches.trans (rehearsing.launches.trans announces.launches)
  · obtain ⟨worker, ended⟩ := lists report (report_of_conclude done) entry member
    exact unbuilt worker (rebuilt ▸ ended)
  · have touched := (rehearsing.node location).noted_trans (announces.node location)
    have saves := Snapshot.saves_replace middle.world run.settings.cachePath
      (Json.writeFields (Snapshot.ofCache middle.cache)) location
    rw [← Snapshot.value_save] at saves
    refine (altered_of_saves touched saves).trans_noted ?_
    have level : middle.fileLevel = begun.fileLevel := rehearsing.fileLevel
    exact level ▸ concludes.node location

/-- A dry run, in either mode and however the steps of its workers are interleaved, and whether it
fails or not: no program is started, nothing is rebuilt, and on disk nothing happens but that the
snapshot is saved, with the directories above it, that artifacts of commands that are not stale have
the time at which they are refreshed, and that a log file, if there is one, is written. -/
theorem rehearsed_of_dryRun (dry : run.settings.dryRun = true) :
    (∃ phases, (run.crew commands (run.announced commands begun)).Reaches phases
        (run.work commands (run.announced commands begun)).2 ∧
      run.Rehearsed commands begun phases (run.work commands (run.announced commands begun)).2
        (run.runCommands commands begun)) ∧
    ∀ phases middle, (run.crew commands (run.announced commands begun)).Reaches phases middle →
      ∀ finished : List (Nat × CommandResult),
        (∀ worker result, finished.lookup worker.val = some result →
          phases worker = .finished result) →
        run.Rehearsed commands begun phases middle
          (run.conclude (collectResults commands finished) middle) := by
  constructor
  · obtain ⟨phases, reaches, lists⟩ := reaches_of_work run commands (run.announced commands begun)
    rw [runCommands_eq_conclude]
    exact ⟨phases, reaches, rehearsed_of_reaches dry reaches lists⟩
  · intro phases middle reaches finished came
    refine rehearsed_of_reaches dry reaches fun report collected entry member => ?_
    obtain ⟨index, within, found⟩ := finished_of_report collected entry member
    exact ⟨⟨index, within⟩, came ⟨index, within⟩ _ found⟩

/-- A dry run for two templates. -/
def dryPairRun : Run :=
  { pairRun with settings := { pairRun.settings with dryRun := true } }

/-- Two commands of a dry run, the second of which is worked on first. -/
theorem rehearsed_of_dryRun_pair :
    let commands := [firstCommand, secondCommand (Path.of "b.slv")]
    let begun := pairState (.text [])
    let one := (dryPairRun.task (secondCommand (Path.of "b.slv"))).process dryPairRun.tools
      (dryPairRun.announced commands begun)
    let two := (dryPairRun.task firstCommand).process dryPairRun.tools one.2
    dryPairRun.settings.dryRun = true ∧ ∃ phases : Fin 2 → Phase,
      (dryPairRun.crew commands (dryPairRun.announced commands begun)).Reaches phases two.2 ∧
      (∀ worker result, [(1, one.1), (0, two.1)].lookup worker.val = some result →
        phases worker = .finished result) ∧
      dryPairRun.Rehearsed commands begun phases two.2
        (dryPairRun.conclude (collectResults commands [(1, one.1), (0, two.1)]) two.2) := by
  intro commands begun one two
  have begins : (dryPairRun.crew commands (dryPairRun.announced commands begun)).Reaches
    (fun _ => .lookup) (dryPairRun.announced commands begun) := .start
  have first := @Team.Reaches.process _ _ (1 : Fin 2) _ _ _ begins rfl
  have reaches := @Team.Reaches.process _ _ (0 : Fin 2) _ _ _ first rfl
  have came : ∀ (worker : Fin 2) result, [(1, one.1), (0, two.1)].lookup worker.val = some result →
      Function.update (Function.update (fun _ => Phase.lookup) 1 (.finished one.1)) 0
        (.finished two.1) worker = .finished result :=
    Fin.forall_fin_two.mpr ⟨fun _ found => congrArg Phase.finished (Option.some.inj found),
      fun _ found => congrArg Phase.finished (Option.some.inj found)⟩
  exact ⟨rfl, _, reaches, came, (rehearsed_of_dryRun rfl).2 _ _ reaches _ came⟩

end Run

end ShaderBuild
