import ShaderBuild.Proofs.Build.Refreshing
/-!
Runs that are repeated. After a run without a failure the artifacts are at least as new as its
beginning and the dependencies older; then every further run over the same files only refreshes the
artifacts, and so leaves things as it found them. Saving comes in between, and does no harm where the
snapshot has a place of its own.
-/
namespace ShaderBuild

open FileSystem (Recent)
open ShaderBuild.Task (Phase)

namespace Run

variable {run next : Run} {commands : List ShaderCommand} {bound : Instant} {beside own : Location}
variable {state after : BuildState}

/-- A later run, without force, whose sources and snapshot are where those of the first are. -/
structure Follows (next first : Run) : Prop where
  sources : next.settings.sourceDirectory = first.settings.sourceDirectory
  snapshot : next.settings.cachePath = first.settings.cachePath
  unforced : next.settings.force = false

/-- The run begins among the files that an earlier one left. The dependencies are those that were known
then, or those that are loaded, of commands that can be saved. -/
structure Resumes (next : Run) (commands : List ShaderCommand) (ended resumed : BuildState) :
    Prop where
  files : resumed.world.files = ended.world.files
  clock : resumed.world.clock = ended.world.clock
  ticks : ended.world.ticks ≤ resumed.world.ticks
  noFile : resumed.fileLevel = none
  cache : resumed.cache = ended.cache ∨
    (∀ command ∈ commands, command.Portable) ∧ resumed.cache = (next.start resumed.world none).cache

/-- Runs one after the other, from the end of the first. -/
inductive Repeats (first : Run) (commands : List ShaderCommand) (ended : BuildState) :
    BuildState → Prop where
  | start : Repeats first commands ended ended
  | again {next : Run} {state resumed middle last : BuildState}
      (earlier : Repeats first commands ended state) (follows : next.Follows first)
      (resumes : next.Resumes commands state resumed)
      (ends : next.Ends commands resumed middle last) : Repeats first commands ended last

/-- What every state between repeated runs has in common: all commands are up to date, the artifacts
hold what they held, and what is known is what would be loaded. -/
structure Keeps (run : Run) (commands : List ShaderCommand) (bound : Instant)
    (beside own : Location) (ended state : BuildState) : Prop where
  current : run.Current commands bound beside own state.world state.cache
  contents : ∀ artifact ∈ run.artifacts commands,
    (state.world.files.file? artifact).map File.contents =
      (ended.world.files.file? artifact).map File.contents
  loads : (∀ command ∈ commands, command.Portable) →
    (state.cache.Sound ∧ state.cache.Plain) ∧ ∃ loaded,
      (Snapshot.load state.world.files run.settings.cachePath).value = .ok loaded ∧
        ∀ key, loaded.find? key = state.cache.find? key

namespace Follows

variable {first : Run} {world : World} {cache : DependencyStore}

theorem artifacts (follows : next.Follows first) (commands : List ShaderCommand) :
    next.artifacts commands = first.artifacts commands := by
  have same (command : ShaderCommand) :
      (next.task command).artifacts = (first.task command).artifacts :=
    congrArg (fun root => (⟨SourceTree.resolve ⟨root⟩ command.outputBase⟩ : Artifacts))
      follows.sources
  simp only [Run.artifacts, same]

theorem behind (follows : next.Follows first) {files : FileSystem} {path : Path} :
    next.Behind commands bound own files path ↔ first.Behind commands bound own files path := by
  unfold Behind
  rw [follows.artifacts]

theorem current (follows : next.Follows first) :
    next.Current commands bound beside own world cache ↔
      first.Current commands bound beside own world cache := by
  constructor
  · rintro ⟨steady, past, seat, recent, aside, known⟩
    rw [follows.snapshot] at seat
    rw [follows.artifacts] at recent aside
    simp only [follows.behind] at known
    exact ⟨steady, past, seat, recent, aside, known⟩
  · rintro ⟨steady, past, seat, recent, aside, known⟩
    rw [← follows.snapshot] at seat
    rw [← follows.artifacts] at recent aside
    simp only [← follows.behind] at known
    exact ⟨steady, past, seat, recent, aside, known⟩

end Follows

variable {first : Run} {ended resumed middle last : BuildState}

private theorem value_loadOrEmpty {files : FileSystem} {path : Path} {loaded : DependencyStore}
    (found : (Snapshot.load files path).value = .ok loaded) :
    (Snapshot.loadOrEmpty files path).value = loaded := by
  unfold Snapshot.loadOrEmpty
  rw [Logged.value_bind, found]
  rfl

/-- A run that resumes finds all commands up to date, whether it keeps what was known or loads it. -/
theorem Keeps.resumes (keeps : first.Keeps commands bound beside own ended state)
    (follows : next.Follows first) (resumes : next.Resumes commands state resumed) :
    next.Current commands bound beside own resumed.world resumed.cache ∧
      ((∀ command ∈ commands, command.Portable) → resumed.cache.Sound ∧ resumed.cache.Plain) := by
  have current := follows.current.mpr keeps.current
  have alike (same : ∀ key, resumed.cache.find? key = state.cache.find? key) :
      next.Current commands bound beside own resumed.world resumed.cache := by
    obtain ⟨steady, past, seat, recent, aside, known⟩ := current
    refine ⟨?_, ?_, ?_, ?_, ?_, ?_⟩
    · unfold World.Steady
      rw [resumes.clock]
      exact steady
    · refine Int.le_trans past ?_
      unfold World.now
      rw [resumes.clock]
      exact steady _ _ resumes.ticks
    · rwa [resumes.files]
    · rwa [resumes.files]
    · rwa [resumes.files]
    · simpa only [resumes.files, same] using known
  rcases resumes.cache with same | ⟨portable, started⟩
  · exact ⟨alike fun key => by rw [same], fun portable => same ▸ (keeps.loads portable).1⟩
  · obtain ⟨_, loaded, found, same⟩ := keeps.loads portable
    rw [← resumes.files, ← follows.snapshot] at found
    obtain rfl : resumed.cache = loaded := started.trans (value_loadOrEmpty found)
    exact ⟨alike same, fun _ => Snapshot.sound_load found⟩

private theorem loads_of_save {world saved : World} {cache : DependencyStore} {path : Path}
    (seat : Snapshot.Seated world.files path beside own)
    (done : (Snapshot.save cache world path).value = (.ok (), saved))
    (sound : cache.Sound ∧ cache.Plain) : ∃ loaded,
      (Snapshot.load saved.files path).value = .ok loaded ∧
        ∀ key, loaded.find? key = cache.find? key := by
  refine Snapshot.load_of_save sound.1 sound.2 ?_ done
  rw [seat.prepare]
  exact seat.unlinked.direct

/-- However the work on commands that are up to date is interleaved, it is refreshing alone, and the
dependencies can be saved after it. -/
theorem Current.reaches {start now : BuildState} {phases : Fin commands.length → Phase}
    (current : run.Current commands bound beside own resumed.world resumed.cache)
    (noFile : resumed.fileLevel = none) (unforced : run.settings.force = false)
    (same : start.quiet = resumed.quiet) (reaches : (run.crew commands start).Reaches phases now) :
    BuildState.Rests bound (run.artifacts commands) resumed now ∧
      (∀ worker result, phases worker = .finished result → result = .ok .upToDate) ∧
      ∃ saved, (Snapshot.save now.cache now.world run.settings.cachePath).value = (.ok (), saved) ∧
        Snapshot.Published beside own now.world saved := by
  have world : start.world = resumed.world := congrArg (·.world) same
  have cache : start.cache = resumed.cache := congrArg (·.cache) same
  have launches : start.launches = resumed.launches := congrArg (·.launches) same
  have noFileToo : start.fileLevel = none := (congrArg (·.fileLevel) same).trans noFile
  have currentToo : run.Current commands bound beside own start.world start.cache := by
    rwa [world, cache]
  obtain ⟨_, rests, idle⟩ := idle_of_reaches noFileToo unforced currentToo reaches
  have here : BuildState.Rests bound (run.artifacts commands) resumed now := by
    obtain ⟨clock, ticks, framed, files, timeless, known, started⟩ := rests
    rw [world] at clock ticks framed files timeless
    exact ⟨clock, ticks, framed, files, timeless, known.trans cache, started.trans launches⟩
  refine ⟨here, fun worker result ended => ?_, Snapshot.save_of_seated (current.rests here).seat _⟩
  have done := idle worker
  rw [ended] at done
  exact done

private theorem contents_of_published {saved : World}
    (current : run.Current commands bound beside own resumed.world resumed.cache)
    (rests : BuildState.Rests bound (run.artifacts commands) resumed after)
    (published : Snapshot.Published beside own after.world saved) :
    ∀ artifact ∈ run.artifacts commands, (saved.files.file? artifact).map File.contents =
      (resumed.world.files.file? artifact).map File.contents := by
  intro artifact member
  rw [published.file? ((current.rests rests).aside artifact member), rests.contents]

/-- A further run leaves behind what it found. -/
theorem Keeps.again (keeps : first.Keeps commands bound beside own ended state)
    (follows : next.Follows first) (resumes : next.Resumes commands state resumed)
    (ends : next.Ends commands resumed middle last) :
    first.Keeps commands bound beside own ended last := by
  obtain ⟨current, stored⟩ := keeps.resumes follows resumes
  obtain ⟨⟨start, phases, same, reaches, _⟩, saved, rest⟩ := ends
  obtain ⟨rests, _, world, done, published⟩ :=
    current.reaches resumes.noFile follows.unforced same reaches
  obtain rfl : last.world = world := congrArg Prod.snd (saved.symm.trans done)
  have cache : last.cache = middle.cache := congrArg (·.cache) rest
  refine ⟨?_, fun artifact member => ?_, fun portable => ?_⟩
  · rw [cache]
    exact follows.current.mp ((current.rests rests).published published)
  · rw [← follows.artifacts] at member
    rw [contents_of_published current rests published artifact member, resumes.files]
    exact keeps.contents artifact (follows.artifacts commands ▸ member)
  · have sound := stored portable
    rw [← rests.cache, ← cache] at sound
    rw [cache] at sound ⊢
    rw [← follows.snapshot]
    exact ⟨sound, loads_of_save (current.rests rests).seat saved sound⟩

theorem Keeps.repeats (keeps : first.Keeps commands bound beside own ended ended)
    (repeats : first.Repeats commands ended state) :
    first.Keeps commands bound beside own ended state := by
  induction repeats with
  | start => exact keeps
  | again earlier follows resumes ends ih => exact ih.again follows resumes ends

variable {begun : BuildState}

/-- The snapshot of the run has a place of its own: no link is in its way when it is saved, and
neither an artifact nor a dependency leads to it. Nor does an artifact to the temporary file, nor a
dependency to an artifact. -/
structure Apart (run : Run) (commands : List ShaderCommand) (middle ended : BuildState) : Prop where
  unlinked : Snapshot.Unlinked (Snapshot.prepare middle.world run.settings.cachePath).2.files
    run.settings.cachePath
  aside : ∀ artifact ∈ run.artifacts commands,
    ∀ kept ∈ [Snapshot.temporary run.settings.cachePath, run.settings.cachePath],
      ∀ location, ended.world.files.outlet? kept = some location →
        ended.world.files.outlet? artifact ≠ some location
  unread : ∀ command ∈ commands, ∀ set, ended.cache.find? (run.task command).key = some set →
    ∀ path ∈ set.paths, ∀ other ∈ run.settings.cachePath :: run.artifacts commands,
      ∀ location, ended.world.files.outlet? other = some location →
        ended.world.files.outlet? path ≠ some location

private theorem recent_of_worked (noFile : begun.fileLevel = none) (steady : begun.world.Steady)
    (wet : run.settings.dryRun = false)
    (prompt : ∀ command ∈ commands, (run.task command).Prompt run.tools)
    (worked : ∃ start phases, start.quiet = begun.quiet ∧
      (run.crew commands start).Reaches phases middle ∧
        ∀ worker, ∃ outcome, phases worker = .finished (.ok outcome)) :
    BuildState.Onward begun.world.now (run.artifacts commands) begun middle ∧
      Recent begun.world.now middle.world.files (run.artifacts commands) ∧
      ∀ command ∈ commands, (middle.cache.find? (run.task command).key).isSome := by
  obtain ⟨start, phases, same, reaches, ended⟩ := worked
  have world : start.world = begun.world := congrArg (·.world) same
  have cache : start.cache = begun.cache := congrArg (·.cache) same
  have noFileToo : start.fileLevel = none := (congrArg (·.fileLevel) same).trans noFile
  obtain ⟨_, failed | ⟨onward, ready⟩⟩ := @Team.ready_of_reaches _ _ (run.crew commands start) _ _
    (run.artifacts commands) noFileToo (world ▸ steady) (fun _ => wet)
    (fun worker => prompt _ (List.getElem_mem _)) (fun worker => artifacts_subset (List.getElem_mem _))
    reaches
  · obtain ⟨worker, problem, failed⟩ := failed
    obtain ⟨outcome, done⟩ := ended worker
    cases failed.symm.trans done
  have now : (run.crew commands start).begun.world.now = begun.world.now := congrArg World.now world
  rw [now] at onward ready
  -- To end without a failure in a real run is to end with what was to be there.
  have done (worker : Fin commands.length) :
      (middle.cache.find? (run.task commands[worker]).key).isSome ∧
        Recent begun.world.now middle.world.files (run.task commands[worker]).artifacts.all := by
    have there := ready worker
    obtain ⟨outcome, finished⟩ := ended worker
    rw [finished] at there
    cases outcome with
    | wouldRebuild => exact there.elim
    | _ => exact there
  have each : ∀ command ∈ commands, (middle.cache.find? (run.task command).key).isSome ∧
      Recent begun.world.now middle.world.files (run.task command).artifacts.all := by
    intro command member
    obtain ⟨index, within, rfl⟩ := List.getElem_of_mem member
    exact done ⟨index, within⟩
  refine ⟨?_, fun artifact member => ?_, fun command member => (each command member).1⟩
  · obtain ⟨clock, ticks, files, known⟩ := onward
    exact ⟨clock.trans (congrArg World.clock world), world ▸ ticks, world ▸ files, cache ▸ known⟩
  · obtain ⟨command, listed, own⟩ := List.mem_flatMap.mp member
    exact (each command listed).2 artifact own

private theorem stored_of_reaches {start : BuildState} {phases : Fin commands.length → Phase}
    (noFile : begun.fileLevel = none) (fresh : begun.cache = .empty)
    (portable : ∀ command ∈ commands, command.Portable) (same : start.quiet = begun.quiet)
    (reaches : (run.crew commands start).Reaches phases middle) :
    middle.cache.Sound ∧ middle.cache.Plain := by
  have noFileToo : start.fileLevel = none := (congrArg (·.fileLevel) same).trans noFile
  have empty : start.cache = .empty := (congrArg (·.cache) same).trans fresh
  have filled (worker : Fin commands.length) : (run.task commands[worker]).key.Filled ∧
      ':' ∉ (run.task commands[worker]).key.dialect := by
    obtain ⟨⟨line, number, parsed⟩, plain⟩ := portable _ (List.getElem_mem worker.isLt)
    exact ⟨ShaderCommand.filled_of_parse parsed, plain⟩
  have begins : start.cache.Sound ∧ start.cache.Plain := by
    rw [empty]
    exact ⟨DependencyStore.sound_empty, List.forall_mem_nil _⟩
  exact (@Team.stored_of_reaches _ _ (run.crew commands start) _ _ noFileToo filled begins
    reaches).2.1

private theorem Apart.behind {laid : World} {command : ShaderCommand} {set : PathSet}
    (apart : run.Apart commands middle ended)
    (outlets : ∀ path, laid.files.outlet? path = ended.world.files.outlet? path)
    (leads : laid.files.outlet? run.settings.cachePath = some own)
    (advances : FileSystem.Advances bound (run.artifacts commands) begun.world.files laid.files)
    (old : ∀ location file, begun.world.files.fileAt? location = some file →
      (∀ artifact ∈ run.artifacts commands,
        ended.world.files.outlet? artifact ≠ some location) → file.modified < bound)
    (member : command ∈ commands) (found : ended.cache.find? (run.task command).key = some set) :
    ∀ path ∈ set.paths, run.Behind commands bound own laid.files path := by
  intro path listed location leadsToo
  have unread := apart.unread command member set found path listed
  rw [outlets] at leads leadsToo
  have free : ∀ artifact ∈ run.artifacts commands,
      ended.world.files.outlet? artifact ≠ some location := by
    intro artifact made same
    exact unread artifact (List.mem_cons_of_mem _ made) location same leadsToo
  refine ⟨?_, fun artifact made => by rw [outlets]; exact free artifact made,
    fun file there => ?_⟩
  · rintro rfl
    exact unread _ List.mem_cons_self location leads leadsToo
  · rcases advances.new location file there with same | ⟨artifact, made, written⟩
    · exact old location file same free
    · rw [outlets] at written
      exact absurd written (free artifact made)

/-- After a first run without a failure all commands are up to date. -/
theorem keeps_of_ends (noFile : begun.fileLevel = none) (fresh : begun.cache = .empty)
    (steady : begun.world.Steady) (wet : first.settings.dryRun = false)
    (prompt : ∀ command ∈ commands, (first.task command).Prompt first.tools)
    (ends : first.Ends commands begun middle ended) (apart : first.Apart commands middle ended)
    (old : ∀ location file, begun.world.files.fileAt? location = some file →
      (∀ artifact ∈ first.artifacts commands,
        ended.world.files.outlet? artifact ≠ some location) → file.modified < begun.world.now) :
    ∃ beside own, first.Keeps commands begun.world.now beside own ended ended := by
  obtain ⟨onward, recent, known⟩ := recent_of_worked noFile steady wet prompt ends.worked
  obtain ⟨beside, own, seat, saves⟩ := Snapshot.seated_of_save apart.unlinked ends.saved
  obtain ⟨world, done, published⟩ := Snapshot.save_of_seated seat middle.cache
  obtain rfl : ended.world = world := congrArg Prod.snd (saves.symm.trans done)
  obtain ⟨clock, ticks, advances⟩ := Snapshot.advances_prepare begun.world.now
    (first.artifacts commands) middle.world first.settings.cachePath
  generalize (Snapshot.prepare middle.world first.settings.cachePath).2 = laid at *
  have cache : ended.cache = middle.cache := congrArg (·.cache) ends.rest
  have outlets (path : Path) := published.framed.outlet? path
  have beside_leads := FileSystem.outlet?_of_spot? seat.besideNamed seat.beside
  have own_leads := FileSystem.outlet?_of_spot? seat.ownNamed seat.own
  -- The commands are current before the snapshot is written, and writing it spares the artifacts.
  have current : first.Current commands begun.world.now beside own laid middle.cache := by
    refine ⟨?_, ?_, seat, advances.recent recent, fun artifact member location leads => ?_,
      fun command member => ?_⟩
    · unfold World.Steady
      rw [clock, onward.clock]
      exact steady
    · refine Int.le_trans (onward.now steady) (Int.le_of_eq ?_)
      unfold World.now
      rw [clock, ticks]
    · rw [outlets] at leads beside_leads own_leads
      refine ⟨?_, ?_⟩
      · rintro rfl
        exact apart.aside artifact member _ (by simp) location beside_leads leads
      · rintro rfl
        exact apart.aside artifact member _ (by simp) location own_leads leads
    · obtain ⟨set, found⟩ := Option.isSome_iff_exists.mp (known command member)
      exact ⟨set, found, apart.behind outlets own_leads (onward.files.trans advances) old member
        (cache ▸ found)⟩
  refine ⟨beside, own, ?_, fun _ _ => rfl, fun portable => ?_⟩
  · rw [cache]
    exact current.published published
  · obtain ⟨start, phases, same, reaches, _⟩ := ends.worked
    have sound := stored_of_reaches noFile fresh portable same reaches
    rw [cache]
    exact ⟨sound, loads_of_save seat done sound⟩

/-- What a report says when every command is up to date. -/
def upToDateReport (commands : List ShaderCommand) : RunReport :=
  ⟨commands.map fun command => (command, .upToDate)⟩

private theorem zip_upToDate {results : List CommandResult} (whole : results.length = commands.length)
    (all : ∀ result ∈ results, result = .ok .upToDate) :
    commands.zip results = (upToDateReport commands).results := by
  have same : results = commands.map fun _ => .ok .upToDate := by
    rw [List.map_const', ← whole]
    exact List.eq_replicate_of_mem all
  rw [same, upToDateReport, RunReport.results, List.map_map]
  simpa [Function.comp_def] using @List.zip_map' _ _ _ id (fun _ => (.ok .upToDate : CommandResult)) commands

/-- In either mode there is a report when every command comes out up to date. -/
theorem Current.report (current : run.Current commands bound beside own resumed.world resumed.cache)
    (noFile : resumed.fileLevel = none) (unforced : run.settings.force = false) :
    ∃ between last, run.runCommands commands resumed = (.ok (upToDateReport commands), last) ∧
      run.Ends commands resumed between last := by
  obtain ⟨start, last, _, done, ends⟩ := @runCommands_of_worked run commands resumed
    (upToDateReport commands) noFile fun start same => by
      obtain ⟨phases, reaches, _, known⟩ := reaches_of_worked run commands start
      obtain ⟨_, results, saved, done, _⟩ := current.reaches noFile unforced same reaches
      refine ⟨zip_upToDate (length_worked run commands start) fun result member => ?_, saved, done⟩
      obtain ⟨worker, ended⟩ := known result member
      exact results worker result ended
  exact ⟨_, last, done, ends⟩

/-- Results in whatever order they come make this report, and the dependencies are saved. -/
theorem Current.collected {now : BuildState} {phases : Fin commands.length → Phase}
    (current : run.Current commands bound beside own resumed.world resumed.cache)
    (noFile : resumed.fileLevel = none) (unforced : run.settings.force = false)
    (reaches : (run.crew commands resumed).Reaches phases now)
    {finished : List (Nat × CommandResult)} (all : ∀ worker, ∃ result,
      phases worker = .finished result ∧ finished.lookup worker.val = some result) :
    collectResults commands finished = .ok (upToDateReport commands) ∧
      ∃ last, run.Ends commands resumed now last := by
  obtain ⟨_, results, saved, done, _⟩ := current.reaches noFile unforced rfl reaches
  have outcomes : ∀ worker, phases worker = .finished (.ok .upToDate) ∧
      finished.lookup worker.val = some (.ok .upToDate) := by
    intro worker
    obtain ⟨result, ended, found⟩ := all worker
    obtain rfl := results worker result ended
    exact ⟨ended, found⟩
  refine ⟨?_, { now with world := saved }, ⟨resumed, phases, rfl, reaches, fun worker =>
    ⟨.upToDate, (outcomes worker).1⟩⟩, done, rfl⟩
  rw [@collectResults_eq commands finished (List.replicate commands.length (.ok .upToDate))
    (by simp) fun index within => ?_, allFailures_eq_ok]
  · exact zip_upToDate (by simp) fun result member => List.eq_of_mem_replicate member
  · rw [List.getElem_replicate]
    exact (outcomes ⟨index, by simpa using within⟩).2

/-- The artifacts hold after a time what they held before. -/
def Holding (run : Run) (commands : List ShaderCommand) (before after : FileSystem) : Prop :=
  ∀ artifact ∈ run.artifacts commands,
    (after.file? artifact).map File.contents = (before.file? artifact).map File.contents

/-- After a run without a failure every further run is a mere refreshing: however its work is
interleaved, all commands come out up to date, no stage is started, the artifacts hold what they held,
and that is reported; and so again and again. The first run may be forced and in either mode, the
further ones may know what was known or load what was saved. -/
theorem upToDate_of_repeats (noFile : begun.fileLevel = none) (fresh : begun.cache = .empty)
    (steady : begun.world.Steady) (wet : first.settings.dryRun = false)
    (prompt : ∀ command ∈ commands, (first.task command).Prompt first.tools)
    (ends : first.Ends commands begun middle ended) (apart : first.Apart commands middle ended)
    (old : ∀ location file, begun.world.files.fileAt? location = some file →
      (∀ artifact ∈ first.artifacts commands,
        ended.world.files.outlet? artifact ≠ some location) → file.modified < begun.world.now)
    (repeats : first.Repeats commands ended state) (follows : next.Follows first)
    (resumes : next.Resumes commands state resumed) :
    (∀ phases now, (next.crew commands resumed).Reaches phases now →
      (∀ worker result, phases worker = .finished result → result = .ok .upToDate) ∧
      now.launches = resumed.launches ∧
      first.Holding commands ended.world.files now.world.files ∧
      ∀ finished : List (Nat × CommandResult), (∀ worker, ∃ result,
        phases worker = .finished result ∧ finished.lookup worker.val = some result) →
        collectResults commands finished = .ok (upToDateReport commands) ∧
          ∃ last, next.Ends commands resumed now last) ∧
    (∃ between last, next.runCommands commands resumed =
      (.ok (upToDateReport commands), last) ∧ next.Ends commands resumed between last) ∧
    ∀ between last, next.Ends commands resumed between last →
      last.launches = resumed.launches ∧
        first.Holding commands ended.world.files last.world.files := by
  obtain ⟨beside, own, keeps⟩ := keeps_of_ends noFile fresh steady wet prompt ends apart old
  have here := keeps.repeats repeats
  obtain ⟨current, _⟩ := here.resumes follows resumes
  refine ⟨fun phases now reaches => ?_, current.report resumes.noFile follows.unforced,
    fun between last done => ⟨?_, (here.again follows resumes done).contents⟩⟩
  · obtain ⟨rests, results, _⟩ := current.reaches resumes.noFile follows.unforced rfl reaches
    refine ⟨results, rests.launches, fun artifact member => ?_, fun finished all =>
      current.collected resumes.noFile follows.unforced reaches all⟩
    rw [rests.contents, resumes.files]
    exact here.contents artifact member
  · obtain ⟨⟨start, phases, same, reaches, _⟩, _, rest⟩ := done
    obtain ⟨rests, _⟩ := current.reaches resumes.noFile follows.unforced same reaches
    exact (congrArg (·.launches) rest).trans rests.launches

end Run

theorem FileSystem.modified_lt_of_entries {files : FileSystem} {bound : Instant}
    (all : files.entries.all (fun entry => match entry.2 with
      | .file file => file.modified < bound
      | _ => true) = true) (location : Location) (file : File)
    (there : files.fileAt? location = some file) : file.modified < bound := by
  unfold fileAt? node? at there
  split at there
  · rename_i own found
    obtain rfl := Option.some.inj there
    split at found
    · cases found
    · obtain ⟨before, after, split, _⟩ := List.lookup_eq_some_iff.mp found
      have listed := List.all_eq_true.mp all (location, .file own) (by simp [split])
      simpa using listed
  · cases there

theorem Task.prompt_careful {task : Task} : task.Prompt carefulTools := by
  intro launches stage world reply after ended done
  cases written : world.files.write (stage.output task.artifacts) world.now (.text []) with
  | ok files =>
    rw [respond_careful launches written] at ended
    obtain ⟨_, rfl⟩ := Prod.mk.inj ended
    exact ⟨FileSystem.writes_of_write written, rfl, Nat.le_succ _, FileSystem.recent_write written⟩
  | error problem =>
    rw [respond_careful_error launches written] at ended
    obtain ⟨rfl, _⟩ := Prod.mk.inj ended
    cases done

namespace Run

/-- A run for the template among its headers, with tools that write their outputs. -/
def siteRun : Run :=
  ⟨(Task.siteTask (Path.of "aa.slv") []).settings, carefulTools⟩

/-- The command `410;mono;aa.slv;o`. -/
def siteCommand : ShaderCommand :=
  (Task.siteTask (Path.of "aa.slv") []).command

/-- The state after the work of a first run. -/
def siteMiddle : BuildState :=
  ((siteRun.task siteCommand).process siteRun.tools Task.siteState).2

/-- What is known after it. -/
def siteCache : DependencyStore :=
  let set := PathSet.empty.withSource (Task.siteFiles []) (siteRun.task siteCommand).source
    (siteRun.task siteCommand).headers
  (DependencyStore.empty.insert (siteRun.task siteCommand).key set).insert
    (siteRun.task siteCommand).key set

/-- The state after a first run, in which the dependencies are saved. -/
def siteEnded : BuildState :=
  { siteMiddle with
    world := (Snapshot.save siteMiddle.cache siteMiddle.world siteRun.settings.cachePath).value.2 }

private theorem worked_site :
    ((siteRun.task siteCommand).process siteRun.tools Task.siteState).1 = .ok .rebuilt ∧
      siteMiddle.world = ⟨Task.siteBuilt (Task.siteText []), Task.siteState.world.clock, 5⟩ ∧
      siteMiddle.cache = siteCache := by
  obtain ⟨rebuilt, left⟩ :=
    Task.process_site_of Task.known_site Task.read_site (@Task.moves_site_careful _ [] _ _)
  exact ⟨rebuilt, congrArg (·.world) left, congrArg (·.cache) left⟩

private theorem saved_site (text : Text) : (Snapshot.save siteCache
    ⟨Task.siteBuilt text, Task.siteState.world.clock, 5⟩ siteRun.settings.cachePath).value.1 =
      .ok () := by
  cbv

private theorem ends_site : siteRun.Ends [siteCommand] Task.siteState siteMiddle siteEnded := by
  obtain ⟨rebuilt, world, cache⟩ := worked_site
  let worker : Fin [siteCommand].length := ⟨0, Nat.zero_lt_one⟩
  refine ⟨⟨_, _, rfl, @Team.Reaches.process _ _ worker _ _ _ .start rfl, fun other => ?_⟩, ?_, rfl⟩
  · obtain rfl : other = worker := Fin.ext (Nat.lt_one_iff.mp other.isLt)
    exact ⟨.rebuilt, (Function.update_self ..).trans (congrArg _ rebuilt)⟩
  · refine Prod.ext ?_ rfl
    rw [world, cache]
    exact saved_site _

private theorem differ_of_outlets {files : FileSystem} {paths others : List Path}
    {leads leadsToo : List (Option Location)} (lead : paths.map files.outlet? = leads)
    (leadToo : others.map files.outlet? = leadsToo)
    (differ : ∀ one ∈ leads, ∀ other ∈ leadsToo, other ≠ one) :
    ∀ path ∈ paths, ∀ other ∈ others, ∀ location, files.outlet? other = some location →
      files.outlet? path ≠ some location := by
  subst lead leadToo
  intro path member other memberToo location stands same
  exact differ _ (List.mem_map_of_mem member) _ (List.mem_map_of_mem memberToo)
    (stands.trans same.symm)

private theorem apart_site : siteRun.Apart [siteCommand] siteMiddle siteEnded := by
  obtain ⟨_, world, cache⟩ := worked_site
  have last : siteEnded.world = (Snapshot.save siteCache ⟨Task.siteBuilt (Task.siteText []),
      Task.siteState.world.clock, 5⟩ siteRun.settings.cachePath).value.2 := by
    unfold siteEnded
    rw [world, cache]
  constructor
  · rw [world]
    generalize Task.siteText [] = text
    have vacant : ∀ other ∈ [Snapshot.temporary siteRun.settings.cachePath,
        siteRun.settings.cachePath], ∃ location, (Snapshot.prepare ⟨Task.siteBuilt text,
          Task.siteState.world.clock, 5⟩ siteRun.settings.cachePath).2.files.locate .node other =
            .ok (.vacant location) := by
      intro other member
      simp only [List.mem_cons, List.not_mem_nil, or_false] at member
      rcases member with rfl | rfl
      · exact ⟨["build".toList, "shaderDeps.json.tmp".toList], by cbv⟩
      · exact ⟨["build".toList, "shaderDeps.json".toList], by cbv⟩
    intro other member location target link
    obtain ⟨place, found⟩ := vacant other member
    cases found.symm.trans link
  · rw [last]
    generalize Task.siteText [] = text
    exact @differ_of_outlets _ _ _ (["o", "o.spv", "o.opt.spv", "o.json", "o.glsl"].map
      fun name => some [name.toList]) (["shaderDeps.json.tmp", "shaderDeps.json"].map
        fun name => some ["build".toList, name.toList]) (by cbv) (by cbv) (by decide)
  · rw [show siteEnded.cache = siteCache from cache, last]
    generalize Task.siteText [] = text
    intro command member set known
    obtain rfl := List.mem_singleton.mp member
    obtain rfl := Option.some.inj
      ((DependencyStore.find?_insert ..).trans (if_pos rfl) |>.symm.trans known)
    exact @differ_of_outlets _ _ _ [some ["aa.slv".toList],
      some (["libraries", "shaders", "headers", "410", "header.glsl"].map String.toList),
      some (["libraries", "shaders", "headers", "mono.glsl"].map String.toList)]
      (some ["build".toList, "shaderDeps.json".toList] ::
        ["o", "o.spv", "o.opt.spv", "o.json", "o.glsl"].map fun name => some [name.toList])
      (by cbv) (by cbv) (by decide)

/-- A first run rebuilds the artifacts, and one that loads what was saved finds them up to date. -/
theorem upToDate_of_repeats_site :
    siteRun.Ends [siteCommand] Task.siteState siteMiddle siteEnded ∧
      ∃ between last,
        siteRun.runCommands [siteCommand] (siteRun.start siteEnded.world none) =
          (.ok (upToDateReport [siteCommand]), last) ∧
        siteRun.Ends [siteCommand] (siteRun.start siteEnded.world none) between last ∧
        last.launches = [] ∧
        siteRun.Holding [siteCommand] siteEnded.world.files last.world.files := by
  have steady : Task.siteState.world.Steady := by
    intro first second earlier
    simpa [Task.siteState] using earlier
  have old : ∀ location file, Task.siteState.world.files.fileAt? location = some file →
      file.modified < Task.siteState.world.now :=
    FileSystem.modified_lt_of_entries (by decide)
  have portable : ∀ command ∈ [siteCommand], command.Portable := by
    intro command member
    obtain rfl := List.mem_singleton.mp member
    exact ⟨⟨"410;mono;aa.slv;o".toList, 1, by cbv⟩, by decide⟩
  have follows : siteRun.Follows siteRun := ⟨rfl, rfl, rfl⟩
  have resumes : siteRun.Resumes [siteCommand] siteEnded (siteRun.start siteEnded.world none) :=
    ⟨rfl, rfl, Nat.le_refl _, rfl, .inr ⟨portable, rfl⟩⟩
  obtain ⟨_, ⟨between, last, reported, ends⟩, still⟩ :=
    upToDate_of_repeats rfl rfl steady rfl (fun _ _ => Task.prompt_careful) ends_site apart_site
      (fun location file there _ => old location file there) .start follows resumes
  obtain ⟨launches, holds⟩ := still between last ends
  exact ⟨ends_site, between, last, reported, ends, launches, holds⟩

end Run

namespace Task

variable {task : Task} {tools : Tools} {state : BuildState} {set : PathSet}

/-- Where the work stands on a command whose artifacts are stale. -/
def Overdue (task : Task) (state : BuildState) : Phase → Prop
  | .lookup => ∃ set, state.cache.find? task.key = some set ∧
    task.isStale state.world.files set = true
  | .judge set => task.isStale state.world.files set = true
  | .discover | .store _ | .refresh => False
  | .finished result => result ≠ .ok .upToDate
  | _ => True

theorem not_upToDate_of_isStale (noFile : state.fileLevel = none)
    (known : state.cache.find? task.key = some set)
    (stale : task.isStale state.world.files set = true) :
    (task.process tools state).1 ≠ .ok .upToDate := by
  refine @complete_induction task tools (fun phase state => task.Overdue state phase) ?_ .lookup
    state noFile ⟨set, known, stale⟩
  intro phase state next after move overdue
  cases move with
  | hit known =>
    obtain ⟨set, found, stale⟩ := overdue
    obtain rfl := Option.some.inj (known.symm.trans found)
    exact stale
  | miss unknown =>
    obtain ⟨set, found, _⟩ := overdue
    simp [found] at unknown
  | fresh current => simp [show task.isStale _ _ = true from overdue] at current
  | discovered | undiscovered | store | refreshed | unrefreshed => exact overdue.elim
  | @succeeded _ stage => cases stage <;> simp [Overdue, Phase.afterStage]
  | report | unprepared | unrediscovered | unexpanded | unwritten | unstarted | exited =>
    simp [Overdue]
  | _ => trivial

end Task

namespace Run

/-- A template with its headers, and newer artifacts whose names begin with `x.json.tmp`. -/
def besideFiles : FileSystem :=
  ["x.json.tmp", "x.json.tmp.spv", "x.json.tmp.opt.spv", "x.json.tmp.json", "x.json.tmp.glsl"].foldl
    (fun files name => files.made name [] 7) (Task.leftFiles 7)

def besideState : BuildState :=
  ⟨⟨besideFiles, fun tick => tick + 10, 0⟩, .empty, [], [], none⟩

/-- A run whose snapshot is kept at `/x.json`. -/
def besideRun : Run :=
  ⟨{ RunSettings.ofPlaces (Path.of "/list") (Path.of "/tools") (Path.of "/build") (Path.of "/") with
      cachePath := Path.of "/x.json" }, carefulTools⟩

/-- The command `410;mono;a.slv;x.json.tmp`. -/
def besideCommand : ShaderCommand :=
  ⟨"410".toList, .mono, Path.of "a.slv", Path.of "x.json.tmp", []⟩

def besideSet : PathSet :=
  PathSet.empty.withSource besideFiles (besideRun.task besideCommand).source
    (besideRun.task besideCommand).headers

/-- The state after the work of the first run: the artifacts are refreshed. -/
def besideMiddle : BuildState :=
  { besideState with
    world := besideState.world.after
      (Freshness.refresh 10 besideFiles (besideRun.task besideCommand).artifacts.all).2
    cache := DependencyStore.empty.insert (besideRun.task besideCommand).key besideSet }

private theorem moves_beside : Task.Moves (besideRun.task besideCommand) besideRun.tools .lookup
    besideState (.ok .upToDate) besideMiddle := by
  have read : besideFiles.readText (besideRun.task besideCommand).source = .ok [] := by cbv
  have current : (besideRun.task besideCommand).isStale besideFiles besideSet = false := by cbv
  have refreshed : (Freshness.refresh 10 besideFiles
      (besideRun.task besideCommand).artifacts.all).1 = .ok 5 := by cbv
  exact .step (.miss rfl) (.step (.discovered (Task.discovered_empty read)) (.step (.store _)
    (.step (.fresh current) (.step (.refreshed (Prod.ext refreshed rfl)) (.done _ _)))))

/-- What the saving leaves: the artifact in the place of the temporary file is gone. -/
def besideSaved : World :=
  (Snapshot.save besideMiddle.cache besideMiddle.world besideRun.settings.cachePath).value.2

private theorem saved_beside :
    (Snapshot.save besideMiddle.cache besideMiddle.world besideRun.settings.cachePath).value =
      (.ok (), besideSaved) :=
  Prod.ext (by cbv) rfl

private theorem isStale_beside :
    (besideRun.task besideCommand).isStale besideSaved.files besideSet = true := by cbv

/-- A first run finds the artifacts up to date; in the place of one of them it saves the temporary
file and moves that away, so a second run does not. -/
theorem stale_of_repeats_beside : ∃ middle ended,
    besideState.fileLevel = none ∧ besideState.cache = .empty ∧ besideState.world.Steady ∧
    besideRun.settings.dryRun = false ∧
    (∀ command ∈ [besideCommand], (besideRun.task command).Prompt besideRun.tools) ∧
    besideRun.runCommands [besideCommand] besideState =
      (.ok (upToDateReport [besideCommand]), ended) ∧
    besideRun.Ends [besideCommand] besideState middle ended ∧
    (∀ set, ended.cache.find? (besideRun.task besideCommand).key = some set →
      ∀ path ∈ set.paths, ∀ artifact ∈ besideRun.artifacts [besideCommand], ∀ location,
        ended.world.files.outlet? artifact = some location →
          ended.world.files.outlet? path ≠ some location) ∧
    (∀ location file, besideState.world.files.fileAt? location = some file →
      file.modified < besideState.world.now) ∧
    besideRun.Follows besideRun ∧ besideRun.Resumes [besideCommand] ended ended ∧
    ∀ last, besideRun.runCommands [besideCommand] ended ≠
      (.ok (upToDateReport [besideCommand]), last) := by
  have worked (start : BuildState) (same : start.quiet = besideState.quiet) :
      (besideRun.worked [besideCommand] start).1 = [.ok .upToDate] ∧
        (besideRun.worked [besideCommand] start).2.quiet = besideMiddle := by
    have moves := moves_beside
    rw [show besideState = start.quiet from same.symm] at moves
    obtain ⟨done, left⟩ := moves.complete (congrArg (·.fileLevel) same)
    exact ⟨congrArg (fun result => [result]) done, left⟩
  obtain ⟨start, ended, same, reported, ends⟩ := @runCommands_of_worked besideRun [besideCommand]
    besideState (upToDateReport [besideCommand]) rfl fun start same => by
      obtain ⟨results, left⟩ := worked start same
      have cache := congrArg (·.cache) left
      have world := congrArg (·.world) left
      refine ⟨by rw [results]; rfl, besideSaved, ?_⟩
      rw [show (besideRun.worked [besideCommand] start).2.cache = _ from cache,
        show (besideRun.worked [besideCommand] start).2.world = _ from world]
      exact saved_beside
  obtain ⟨_, left⟩ := worked start same
  have cache : ended.cache = besideMiddle.cache :=
    (congrArg (·.cache) ends.rest).trans (congrArg (·.cache) left)
  have world : ended.world = besideSaved := by
    have saved := ends.saved
    rw [show (besideRun.worked [besideCommand] start).2.cache = _ from congrArg (·.cache) left,
      show (besideRun.worked [besideCommand] start).2.world = _ from congrArg (·.world) left] at saved
    exact congrArg Prod.snd (saved.symm.trans saved_beside)
  have noFile : ended.fileLevel = none :=
    (congrArg (·.fileLevel) ends.rest).trans (congrArg (·.fileLevel) left)
  have known : ended.cache.find? (besideRun.task besideCommand).key = some besideSet := by
    rw [cache]
    exact (DependencyStore.find?_insert ..).trans (if_pos rfl)
  have steady : besideState.world.Steady := by
    intro first second earlier
    simpa [besideState] using earlier
  refine ⟨_, ended, rfl, rfl, steady, rfl, fun _ _ => Task.prompt_careful, reported, ends, ?_,
    FileSystem.modified_lt_of_entries (by decide), ⟨rfl, rfl, rfl⟩,
    ⟨rfl, rfl, Nat.le_refl _, noFile, .inl rfl⟩, fun last again => ?_⟩
  · intro set found
    obtain rfl := Option.some.inj (known.symm.trans found)
    rw [world]
    exact @differ_of_outlets _ _ _ [some ["a.slv".toList],
      some (["libraries", "shaders", "headers", "410", "header.glsl"].map String.toList),
      some (["libraries", "shaders", "headers", "mono.glsl"].map String.toList)]
      (["x.json.tmp", "x.json.tmp.spv", "x.json.tmp.opt.spv", "x.json.tmp.json",
        "x.json.tmp.glsl"].map fun name => some [name.toList]) (by cbv) (by cbv) (by decide)
  · obtain ⟨restart, sameToo, results, _⟩ := worked_of_runCommands noFile again
    have stale : (besideRun.task besideCommand).isStale restart.world.files besideSet = true := by
      rw [show restart.world = ended.world from congrArg (·.world) sameToo, world]
      exact isStale_beside
    have knownToo : restart.cache.find? (besideRun.task besideCommand).key = some besideSet := by
      rw [show restart.cache = ended.cache from congrArg (·.cache) sameToo, known]
    have quiet : restart.fileLevel = none := (congrArg (·.fileLevel) sameToo).trans noFile
    have first : ((besideRun.task besideCommand).process besideRun.tools restart).1 =
        .ok .upToDate := (List.cons.inj (congrArg (List.map Prod.snd) results)).1
    exact Task.not_upToDate_of_isStale quiet knownToo stale first

end Run

end ShaderBuild
