import ShaderBuild.Proofs.Build.Known
import ShaderBuild.Proofs.FileSystem.Stamps
/-!
Histories of a command: runs, whatever they end in, and edits between them. Throughout, what is known
of the dependencies is true, or the times of the artifacts show that it need not be.
-/
namespace ShaderBuild

namespace Task

variable {task : Task} {tools : Tools} {set : PathSet} {files : FileSystem}
  {cache : DependencyStore} {phase next : Phase} {state after : BuildState}

/-- No artifact is there, and none comes to light when directories are made. -/
def Clear (task : Task) (files : FileSystem) : Prop :=
  ∀ grown, files.Grown grown → ∀ artifact ∈ task.artifacts.all, grown.file? artifact = none

/-- A file of the set is as new as every artifact. -/
def Overtaken (task : Task) (set : PathSet) (files : FileSystem) : Prop :=
  ∃ path ∈ set.paths, ∃ file, files.file? path = some file ∧
    ∀ artifact ∈ task.artifacts.all, ∀ made, files.file? artifact = some made →
      made.modified ≤ file.modified

/-- There is no artifact, or what is known is true, or the artifacts show that it need not be. -/
def Sound (task : Task) (files : FileSystem) (cache : DependencyStore) : Prop :=
  task.Clear files ∨ task.Settled files ∧ ∃ set, task.Knows files cache set ∨
    cache.find? task.key = some set ∧ task.Overtaken set files

theorem Clear.grown {grown : FileSystem} (clear : task.Clear files) (more : files.Grown grown) :
    task.Clear grown :=
  fun other yet => clear other (more.trans yet)

private theorem expanded_file? (current : task.isStale files set = false) :
    ∃ made, files.file? task.artifacts.expanded = some made ∧
      ∀ source ∈ set.paths, ∀ file, files.file? source = some file →
        file.modified < made.modified := by
  rw [isStale, Bool.or_eq_false_iff, Freshness.filesStale_eq_false_iff] at current
  exact current.2.2 _ (expanded_mem _)

theorem isStale_of_clear (clear : task.Clear files) : task.isStale files set = true := by
  by_contra current
  rw [Bool.not_eq_true] at current
  obtain ⟨made, found, _⟩ := expanded_file? current
  rw [clear files (.refl files) _ (expanded_mem _)] at found
  cases found

theorem isStale_of_overtaken (overtaken : task.Overtaken set files) :
    task.isStale files set = true := by
  by_contra current
  rw [Bool.not_eq_true] at current
  obtain ⟨made, found, newer⟩ := expanded_file? current
  obtain ⟨path, member, file, there, older⟩ := overtaken
  exact Int.not_lt.mpr (older _ (expanded_mem _) made found) (newer path member file there)

theorem sound_of_knows (renewed : task.Settled files ∧ ∃ set, task.Knows files cache set) :
    task.Sound files cache :=
  .inr ⟨renewed.1, renewed.2.imp fun _ => .inl⟩

/-- Making the directory of the artifacts changes nothing once there are artifacts. -/
theorem Sound.prepared (sound : task.Sound files cache) :
    task.Sound (task.prepared files) cache := by
  rcases sound with clear | ⟨settled, known⟩
  · exact .inl (clear.grown (grown_prepared task files))
  · rw [prepared_of_settled settled]
    exact .inr ⟨settled, known⟩

/-- What is known is true where the artifacts are not stale. -/
theorem Sound.knows (sound : task.Sound files cache) (known : cache.find? task.key = some set)
    (current : task.isStale files set = false) :
    task.Settled files ∧ ∃ set, task.Knows files cache set := by
  rcases sound with clear | ⟨settled, found, knows | ⟨same, overtaken⟩⟩
  · simp [isStale_of_clear clear] at current
  · exact ⟨settled, found, knows⟩
  · obtain rfl : set = found := Option.some.inj (known.symm.trans same)
    simp [isStale_of_overtaken overtaken] at current

/-- The tools write what they are asked for, and the clock stamps it. -/
structure Disciplined (task : Task) (tools : Tools) : Prop where
  confined : task.Confined tools
  stamped : ∀ launches launch world reply after,
    tools.respond launches launch world = (reply, after) → World.Stamped world after

/-- What holds of the world at all times. -/
structure Regular (task : Task) (world : World) : Prop where
  steady : world.Steady
  home : world.files.Home
  short : Text.byteLength (world.files.absolute task.source).text < FileSystem.maximalPath
  past : world.Past task.artifacts.all

theorem Regular.stamped {before now : World} (regular : task.Regular before)
    (stamped : World.Stamped before now) (framed : before.files.Framed now.files) :
    task.Regular now := by
  refine ⟨stamped.steady regular.steady, regular.home.congr framed, ?_,
    stamped.past regular.steady framed regular.past⟩
  rw [FileSystem.absolute, ← framed.home]
  exact regular.short

theorem Regular.prepared {world : World} (regular : task.Regular world)
    (sound : task.Sound world.files cache) :
    task.Regular { world with files := task.prepared world.files } := by
  have grown := grown_prepared task world.files
  refine ⟨regular.steady, grown.congr_home regular.home, ?_, ?_⟩
  · rw [grown.absolute]
    exact regular.short
  · rcases sound with clear | ⟨settled, _⟩
    · intro artifact member file found
      rw [clear _ grown artifact member] at found
      cases found
    · rw [prepared_of_settled settled]
      exact regular.past

/-- What is known in the course of a run, besides what `Renewing` says. -/
def Tracking (task : Task) (state : BuildState) : Phase → Prop
  | .discover | .store _ => task.Clear state.world.files
  | .judge set => task.Sound state.world.files state.cache ∧ state.cache.find? task.key = some set
  | .refresh => task.Settled state.world.files ∧
    ∃ set, task.Knows state.world.files state.cache set
  | .finished result => task.Sound state.world.files state.cache ∧
    (result = .ok .upToDate → ∃ set, task.Knows state.world.files state.cache set)
  | _ => task.Sound state.world.files state.cache

private theorem tracking_refreshed {changed : FileSystem} {now : Instant}
    (retimed : FileSystem.Retimed now files changed)
    (renewed : task.Settled files ∧ ∃ set, task.Knows files cache set) :
    task.Settled changed ∧ ∃ set, task.Knows changed cache set :=
  ⟨renewed.1.framed retimed.framed, renewed.2.imp fun _ knows => knows.retimed retimed⟩

theorem tracking_of_move {begun : FileSystem} (apart : task.Apart (task.prepared begun))
    (confined : task.Confined tools) (move : Move task tools phase state next after)
    (renewing : task.Renewing begun state phase) (tracking : task.Tracking state phase) :
    task.Tracking after next := by
  have renewed := renewing_of_move apart confined move renewing
  cases move with
  | hit known => exact ⟨tracking, known⟩
  | miss unknown =>
    rcases tracking with clear | ⟨_, _, knows | ⟨known, _⟩⟩
    · exact clear
    · simp [knows.known] at unknown
    · simp [known] at unknown
  | discovered => exact tracking
  | undiscovered => exact ⟨.inl tracking, by simp⟩
  | store set => exact ⟨.inl tracking, DependencyStore.find?_insert_self⟩
  | fresh current => exact tracking.1.knows tracking.2 current
  | report => exact ⟨tracking.1, by simp⟩
  | rebuild => exact tracking.1
  | @refreshed _ count files done =>
    have retimed := Freshness.retimed_of_refresh done
    have current := tracking_refreshed retimed tracking
    exact ⟨sound_of_knows current, fun _ => current.2⟩
  | unrefreshed failed => exact absurd failed Freshness.refresh_ne_error
  | prepared => exact Sound.prepared tracking
  | unprepared => exact ⟨Sound.prepared tracking, by simp⟩
  | rediscovered => exact tracking
  | unrediscovered => exact ⟨tracking, by simp⟩
  | restore => exact sound_of_knows renewed
  | expanded => exact tracking
  | unexpanded => exact ⟨tracking, by simp⟩
  | written => exact sound_of_knows renewed
  | unwritten => exact ⟨tracking, by simp⟩
  | unstarted => exact ⟨tracking, by simp⟩
  | exited => exact ⟨sound_of_knows renewed, by simp⟩
  | @succeeded _ stage =>
    cases stage with
    | crossCompile => exact ⟨sound_of_knows renewed, by simp⟩
    | _ => exact sound_of_knows renewed

theorem regular_of_move (disciplined : task.Disciplined tools)
    (move : Move task tools phase state next after) (tracking : task.Tracking state phase)
    (regular : task.Regular state.world) : task.Regular after.world := by
  cases move with
  | @refreshed _ count files done =>
    have retimed := Freshness.retimed_of_refresh done
    exact regular.stamped (World.stamped_retimed retimed) retimed.framed
  | unrefreshed failed => exact absurd failed Freshness.refresh_ne_error
  | prepared => exact regular.prepared tracking
  | unprepared => exact regular.prepared tracking
  | written done =>
    exact regular.stamped (World.stamped_write done) (FileSystem.writes_of_write done).framed
  | exited _ ended =>
    exact regular.stamped (disciplined.stamped _ _ _ _ _ ended)
      (disciplined.confined _ _ _ _ _ ended).framed
  | succeeded _ ended =>
    exact regular.stamped (disciplined.stamped _ _ _ _ _ ended)
      (disciplined.confined _ _ _ _ _ ended).framed
  | _ => exact regular

theorem tracking_of_process (noFile : state.fileLevel = none)
    (apart : task.Apart (task.prepared state.world.files)) (disciplined : task.Disciplined tools)
    (regular : task.Regular state.world) (sound : task.Sound state.world.files state.cache) :
    task.Regular (task.process tools state).2.world ∧
      task.Tracking (task.process tools state).2 (.finished (task.process tools state).1) := by
  have ends : task.Renewing state.world.files (task.process tools state).2.quiet
        (.finished (task.process tools state).1) ∧
      task.Tracking (task.process tools state).2.quiet (.finished (task.process tools state).1) ∧
      task.Regular (task.process tools state).2.quiet.world := by
    refine complete_induction
      (motive := fun phase now => task.Renewing state.world.files now phase ∧
        task.Tracking now phase ∧ task.Regular now.world) ?_ .lookup state noFile
      ⟨rfl, sound, regular⟩
    rintro phase now next after move ⟨renewing, tracking, regular⟩
    exact ⟨renewing_of_move apart disciplined.confined move renewing,
      tracking_of_move apart disciplined.confined move renewing tracking,
      regular_of_move disciplined move tracking regular⟩
  exact ⟨ends.2.2, ends.2.1⟩

private theorem edited_known {location : Location} {old new : File} {world : World}
    (regular : task.Regular world) (there : world.files.fileAt? location = some old)
    (free : world.files.frame? location = none)
    (other : ∀ artifact ∈ task.artifacts.all, world.files.outlet? artifact ≠ some location)
    (present : new.modified = world.now) (knows : task.Knows world.files cache set) :
    task.Knows (world.files.put location (.file new)) cache set ∨
      task.Overtaken set (world.files.put location (.file new)) := by
  by_cases read : ∃ path ∈ (discover world.files task.searchPath task.source task.headers).reads
      world.files, world.files.outlet? path = some location
  · obtain ⟨path, member, leads⟩ := read
    obtain ⟨listed, inside, leadsToo⟩ :=
      listed_of_read regular.home regular.short knows.found member leads
    refine .inr ⟨listed, inside, new, ?_, fun artifact written made found => ?_⟩
    · rw [FileSystem.file?_put free, if_pos leadsToo]
    · rw [FileSystem.file?_put free, if_neg (other artifact written)] at found
      rw [present]
      exact regular.past artifact written made found
  · refine .inl (knows.agree (.put free new) (fun path member text => ?_) fun path _ => ?_)
    · have elsewhere : world.files.outlet? path ≠ some location := fun leads =>
        read ⟨path, member, leads⟩
      rw [FileSystem.readText_eq_ok, FileSystem.readText_eq_ok, FileSystem.file?_put free,
        if_neg elsewhere]
    · rw [FileSystem.isFile_eq, FileSystem.isFile_eq, FileSystem.file?_put free]
      by_cases leads : world.files.outlet? path = some location
      · rw [if_pos leads, FileSystem.file?_of_outlet? leads, there]
        rfl
      · rw [if_neg leads]

private theorem edited_overtaken {location : Location} {new : File} {world : World}
    (past : world.Past task.artifacts.all) (free : world.files.frame? location = none)
    (other : ∀ artifact ∈ task.artifacts.all, world.files.outlet? artifact ≠ some location)
    (present : new.modified = world.now) (overtaken : task.Overtaken set world.files) :
    task.Overtaken set (world.files.put location (.file new)) := by
  obtain ⟨path, member, file, found, older⟩ := overtaken
  have artifacts : ∀ artifact ∈ task.artifacts.all,
      (world.files.put location (.file new)).file? artifact = world.files.file? artifact := by
    intro artifact written
    rw [FileSystem.file?_put free, if_neg (other artifact written)]
  by_cases leads : world.files.outlet? path = some location
  · refine ⟨path, member, new, by rw [FileSystem.file?_put free, if_pos leads], ?_⟩
    intro artifact written made there
    rw [artifacts artifact written] at there
    rw [present]
    exact past artifact written made there
  · refine ⟨path, member, file, by rw [FileSystem.file?_put free, if_neg leads, found], ?_⟩
    intro artifact written made there
    rw [artifacts artifact written] at there
    exact older artifact written made there

/-- What a file holds may be replaced, if it is no artifact. -/
theorem tracked_of_edit {path : Path} {contents : Contents} {file : File} {world : World}
    (regular : task.Regular world) (sound : task.Sound world.files cache)
    (there : world.files.file? path = some file)
    (other : ∀ artifact ∈ task.artifacts.all, ∀ location,
      world.files.outlet? path = some location → world.files.outlet? artifact ≠ some location) :
    task.Regular (world.write path contents).2 ∧
      task.Sound (world.write path contents).2.files cache := by
  obtain ⟨location, leads, found⟩ := FileSystem.file?_eq_some.mp there
  have free := FileSystem.free_of_outlet? leads
  have elsewhere : ∀ artifact ∈ task.artifacts.all, world.files.outlet? artifact ≠ some location :=
    fun artifact member => other artifact member location leads
  have done : world.files.write path world.now contents =
      .ok (world.files.put location (.file { file with contents, modified := world.now })) :=
    FileSystem.write_eq_ok.mpr ⟨location, leads, by rw [found]; rfl⟩
  have edited : (world.write path contents).2 = world.after
      (world.files.put location (.file { file with contents, modified := world.now })) := by
    rw [World.write, World.change, done]
  rw [edited]
  refine ⟨regular.stamped (World.stamped_write done) (.put free _), ?_⟩
  rcases sound with clear | ⟨settled, set, knows | ⟨known, overtaken⟩⟩
  · exact .inl (clear.grown (.put_file found free _))
  · refine .inr ⟨settled.framed (.put free _), set, ?_⟩
    exact (edited_known regular found free elsewhere rfl knows).imp_right fun late =>
      ⟨knows.known, late⟩
  · exact .inr ⟨settled.framed (.put free _), set,
      .inr ⟨known, edited_overtaken regular.past free elsewhere rfl overtaken⟩⟩

/-- A state in which no log file is kept and no artifact is there, the clock never goes back, and the
working directory is given by its own path. -/
structure Begins (task : Task) (state : BuildState) : Prop where
  noFile : state.fileLevel = none
  steady : state.world.Steady
  home : state.world.files.Home
  clear : task.Clear state.world.files

/-- What follows from a state by edits of files that are no artifacts and by runs of the command,
whatever they end in. -/
inductive History (task : Task) (begun : BuildState) : BuildState → Prop where
  | start : History task begun begun
  | edit {state : BuildState} {path : Path} {file : File} (contents : Contents)
      (earlier : History task begun state) (there : state.world.files.file? path = some file)
      (other : ∀ artifact ∈ task.artifacts.all, ∀ location,
        state.world.files.outlet? path = some location →
          state.world.files.outlet? artifact ≠ some location) :
      History task begun { state with world := (state.world.write path contents).2 }
  | run {state : BuildState} {tools : Tools} (force dryRun : Bool) (profile : Text)
      (earlier : History task begun state)
      (apart : task.Apart (task.prepared state.world.files))
      (disciplined : task.Disciplined tools) :
      History task begun ((task.again force dryRun profile).process tools state).2

section

variable {force dryRun : Bool} {profile : Text}

theorem sound_again :
    (task.again force dryRun profile).Sound files cache ↔ task.Sound files cache := by
  unfold Sound
  simp only [knows_again]
  exact Iff.rfl

theorem regular_again {world : World} :
    (task.again force dryRun profile).Regular world ↔ task.Regular world :=
  ⟨fun regular => ⟨regular.steady, regular.home, regular.short, regular.past⟩,
    fun regular => ⟨regular.steady, regular.home, regular.short, regular.past⟩⟩

theorem tracked_of_run (noFile : state.fileLevel = none)
    (apart : task.Apart (task.prepared state.world.files)) (disciplined : task.Disciplined tools)
    (regular : task.Regular state.world) (sound : task.Sound state.world.files state.cache) :
    let ended := (task.again force dryRun profile).process tools state
    task.Regular ended.2.world ∧ task.Sound ended.2.world.files ended.2.cache ∧
      (ended.1 = .ok .upToDate → ∃ set, task.Knows ended.2.world.files ended.2.cache set) := by
  have again : (task.again force dryRun profile).Disciplined tools :=
    ⟨disciplined.confined, disciplined.stamped⟩
  obtain ⟨regular, sound, current⟩ := @tracking_of_process (task.again force dryRun profile) tools
    state noFile apart again (regular_again.mpr regular) (sound_again.mpr sound)
  exact ⟨regular_again.mp regular, sound_again.mp sound,
    fun fresh => (current fresh).imp fun _ => knows_again.mp⟩

end

/-- Whatever happened before, what is known is true or the artifacts show that it need not be. -/
theorem History.sound {begun : BuildState} (history : task.History begun state)
    (begins : task.Begins begun)
    (short : Text.byteLength (begun.world.files.absolute task.source).text <
      FileSystem.maximalPath) :
    state.fileLevel = none ∧ task.Regular state.world ∧
      task.Sound state.world.files state.cache := by
  induction history with
  | start =>
    refine ⟨begins.noFile, ⟨begins.steady, begins.home, short, ?_⟩, .inl begins.clear⟩
    intro artifact member file found
    rw [begins.clear _ (.refl _) artifact member] at found
    cases found
  | edit contents earlier there other ih =>
    obtain ⟨noFile, regular, sound⟩ := ih
    obtain ⟨regular, sound⟩ := @tracked_of_edit task _ _ contents _ _ regular sound there other
    exact ⟨noFile, regular, sound⟩
  | run force dryRun profile earlier apart disciplined ih =>
    obtain ⟨noFile, regular, sound⟩ := ih
    obtain ⟨regular, sound, _⟩ := tracked_of_run noFile apart disciplined regular sound
    exact ⟨fileLevel_process noFile, regular, sound⟩

end Task

end ShaderBuild
