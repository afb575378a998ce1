import ShaderBuild.Proofs.Build.Interleaving
import ShaderBuild.Proofs.Build.Lookups
/-!
Independent commands. Whatever the interleaving of the work on all of them, each command comes to
the phases that it comes to alone, its known dependencies are those that it has alone, and its
artifacts hold what they hold alone.
-/
namespace ShaderBuild

open ShaderBuild.Task (Phase)

namespace Task

/-- The paths that the work on a command uses at a phase; its artifacts it may use at any. -/
inductive Uses (task : Task) (files : FileSystem) : Phase → Path → Prop where
  | finds {phase : Phase} {path : Path} (finds : task.Finds files phase path) :
      Uses task files phase path
  | directory {path : Path} (member : path ∈ task.directories) : Uses task files .prepare path
  | program (stage : ToolStage) : Uses task files (.run stage) (task.launchOf stage).program
  | artifact {phase : Phase} {path : Path} (member : path ∈ task.artifacts.all) :
      Uses task files phase path

/-- What has to be in its place once the directory of the artifacts is made: the artifacts when the
first is written, and the program of a stage when it is started. -/
inductive Places (task : Task) : Phase → Path → Prop where
  | artifact {text : Text} {path : Path} (member : path ∈ task.artifacts.all) :
      Places task (.write text) path
  | program (stage : ToolStage) : Places task (.run stage) (task.launchOf stage).program

/-- What a program replies and writes depends on how it is started and on what it and the artifacts
are, whatever the times of these files. -/
def Deterministic (task : Task) (tools : Tools) : Prop :=
  ∀ stage launches others world instead,
    (∀ path ∈ (task.launchOf stage).program :: task.artifacts.all, ∀ aim,
      (world.files.locate aim path).map Place.timeless =
        (instead.files.locate aim path).map Place.timeless) →
    (tools.respond launches (task.launchOf stage) world).1 =
        (tools.respond others (task.launchOf stage) instead).1 ∧
      ((tools.respond launches (task.launchOf stage) world).2.files.file?
          (stage.output task.artifacts)).map (File.stamped 0) =
        ((tools.respond others (task.launchOf stage) instead).2.files.file?
          (stage.output task.artifacts)).map (File.stamped 0)

end Task

/-- The argument after the first that asks for an output. -/
def outputAfter : List Text → Option Text
  | flag :: output :: rest =>
    if flag = "-o".toList ∨ flag = "--output".toList then some output
    else outputAfter (output :: rest)
  | _ => none

/-- Programs that succeed and write an output without text where their arguments ask for one. -/
def writingTools : Tools where
  respond _ launch world :=
    match outputAfter launch.arguments with
    | some output => (⟨.exited 0, [], []⟩, (world.write ⟨output⟩ (.text [])).2)
    | none => (⟨.exited 0, [], []⟩, world)

namespace Task

variable {task : Task}

theorem outputAfter_launchOf (stage : ToolStage) :
    outputAfter (task.launchOf stage).arguments = some (stage.output task.artifacts).text := by
  cases stage with
  | compile => rfl
  | optimize => rfl
  | reflect => rfl
  | crossCompile => rfl

theorem respond_writing (launches : List Launch) (stage : ToolStage) (world : World) :
    writingTools.respond launches (task.launchOf stage) world =
      (⟨.exited 0, [], []⟩, (world.write (stage.output task.artifacts) (.text [])).2) := by
  simp only [writingTools, outputAfter_launchOf]

theorem confined_writing : task.Confined writingTools := by
  intro launches stage world reply after ended
  rw [respond_writing] at ended
  obtain ⟨_, rfl⟩ := Prod.mk.inj ended
  unfold World.write World.change
  split
  · exact FileSystem.writes_of_write ‹_›
  · exact .inl rfl

/-- What is written where a path leads depends on the contents, and on the file that was there. -/
theorem file?_write {world instead : World} {path : Path} {contents : Contents}
    (same : (world.files.locate .target path).map Place.timeless =
      (instead.files.locate .target path).map Place.timeless) :
    ((world.write path contents).2.files.file? path).map (File.stamped 0) =
      ((instead.write path contents).2.files.file? path).map (File.stamped 0) := by
  have leads : world.files.outlet? path = instead.files.outlet? path := by
    have seen (found : Except FileError Place) :
        FileSystem.outlet found = FileSystem.outlet (found.map Place.timeless) := by
      cases found with
      | error problem => rfl
      | ok place =>
        cases place with
        | vacant location => rfl
        | occupied location node => cases node <;> rfl
    rw [FileSystem.outlet?, FileSystem.outlet?, seen, same, ← seen]
  have files := FileSystem.file?_of_timeless same
  have written (world : World) : ((world.write path contents).2.files.file? path).map
      (File.stamped 0) = (world.files.outlet? path).map fun _ =>
        { ((world.files.file? path).map (File.stamped 0)).getD ⟨.text [], 0, false, false⟩ with
          contents := contents } := by
    unfold World.write World.change
    dsimp only
    cases done : world.files.write path world.now contents with
    | error problem =>
      cases here : world.files.outlet? path with
      | none => simp [FileSystem.file?, here]
      | some location =>
        rw [FileSystem.write_eq_ok.mpr ⟨location, here, rfl⟩] at done
        cases done
    | ok after =>
      obtain ⟨location, here, rfl⟩ := FileSystem.write_eq_ok.mp done
      dsimp only [World.after]
      rw [FileSystem.file?_put (FileSystem.free_of_outlet? here), if_pos here, here,
        FileSystem.file?_of_outlet? here]
      cases world.files.fileAt? location <;> rfl
  rw [written, written, leads, files]

theorem deterministic_writing : task.Deterministic writingTools := by
  intro stage launches others world instead same
  rw [respond_writing, respond_writing]
  exact ⟨rfl, file?_write (same _ (List.mem_cons_of_mem _ (output_mem _ _)) .target)⟩

end Task

namespace Team

section

variable {ι : Type} (team : Team ι)

/-- No two commands have the same key, and no way of a path that one command uses comes to a halt
where an artifact of another may come to stand. -/
structure Independent : Prop where
  keys : ∀ worker other, worker ≠ other →
    (team.tasks worker).key.same (team.tasks other).key = false
  apart : ∀ worker other, worker ≠ other → ∀ phase state, team.Alone worker phase state →
    ∀ path, (team.tasks worker).Uses state.world.files phase path →
      ∀ laid, team.Laid laid → ∀ location, laid.Stops path location → ¬team.Owned other location

/-- Once the directory of the command's artifacts is made, the way of the path comes to one halt,
whatever other directories are made. -/
def Still (worker : ι) (path : Path) : Prop :=
  ∀ laid, team.Laid laid → ∀ aim, ((team.tasks worker).prepared laid).halt aim path =
    ((team.tasks worker).prepared team.begun.world.files).halt aim path

/-- The directories that are made for artifacts change nothing of what a command finds where it
looks, of its artifacts that there are, of whether its own directory can be made, and of where its
artifacts and the programs are once it is made. -/
structure Unmoved : Prop where
  found : ∀ worker phase state, team.Alone worker phase state →
    ∀ path, (team.tasks worker).Finds state.world.files phase path →
      ∀ laid, team.Laid laid → laid.locateFile path = state.world.files.locateFile path
  artifact : ∀ worker, ∀ artifact ∈ (team.tasks worker).artifacts.all,
    ∀ laid, team.Laid laid → laid.file? artifact = team.begun.world.files.file? artifact
  directory : ∀ worker state, team.Alone worker .prepare state →
    ∀ parent, (team.tasks worker).outputBase.parent? = some parent → ∀ laid, team.Laid laid →
      (laid.makeDirectories parent).1 = (team.begun.world.files.makeDirectories parent).1
  place : ∀ worker phase state, team.Alone worker phase state →
    ∀ path, (team.tasks worker).Places phase path → team.Still worker path

/-- The tools are deterministic for every command. -/
def Deterministic : Prop :=
  ∀ worker, (team.tasks worker).Deterministic team.tools

/-- No artifact of the command has been changed. -/
def Calm (worker : ι) (now : FileSystem) : Prop :=
  ∀ location, team.Owned worker location →
    now.fileAt? location = team.begun.world.files.fileAt? location

/-- The command has written artifacts: in both file systems they stand in the same places, and are
the same but for their times. -/
structure Written (worker : ι) (now alone : FileSystem) : Prop where
  settled : (team.tasks worker).Settled now
  framed : alone.Framed ((team.tasks worker).prepared team.begun.world.files)
  own : ∀ location, team.Owned worker location →
    (now.fileAt? location).map (File.stamped 0) = (alone.fileAt? location).map (File.stamped 0)
  rest : ∀ location, ¬team.Owned worker location →
    alone.fileAt? location = team.begun.world.files.fileAt? location
  place : ∀ artifact ∈ (team.tasks worker).artifacts.all, team.Still worker artifact

/-- The command has written no artifact: they are those of the beginning but for their times. -/
structure Spared (worker : ι) (now alone : FileSystem) : Prop where
  own : ∀ location, team.Owned worker location →
    (now.fileAt? location).map (File.stamped 0) =
      (team.begun.world.files.fileAt? location).map (File.stamped 0)
  artifact : ∀ artifact ∈ (team.tasks worker).artifacts.all,
    (alone.file? artifact).map (File.stamped 0) =
      (team.begun.world.files.file? artifact).map (File.stamped 0)

/-- How the files are related to those of the work on one command alone. -/
def Matches (worker : ι) (now alone : FileSystem) : Phase → Prop
  | .lookup | .discover | .store _ | .judge _ | .refresh | .prepare => team.Calm worker now
  | .rediscover | .restore _ | .expand | .write _ =>
    team.makers worker ∧ (team.tasks worker).Settled now ∧ team.Calm worker now
  | .run _ => team.Written worker now alone
  | .finished _ => team.Written worker now alone ∨ team.Spared worker now alone

/-- The state is for one command what the state of the work on it alone is. -/
structure Twin (worker : ι) (phase : Phase) (state alone : BuildState) : Prop where
  entry : state.cache.find? (team.tasks worker).key = alone.cache.find? (team.tasks worker).key
  files : team.Matches worker state.world.files alone.world.files phase

end

variable {ι : Type} {team : Team ι} {worker other : ι} {base now first second : FileSystem}
  {phase next : Phase} {state after alone : BuildState} {location : Location} {path : Path}

theorem Independent.owned (independent : team.Independent) (differ : worker ≠ other)
    (owned : team.Owned worker location) : ¬team.Owned other location := by
  obtain ⟨laid, is, artifact, member, leads⟩ := owned
  exact independent.apart worker other differ _ _ .start artifact (.artifact member) laid is location
    (FileSystem.stops_of_outlet? leads)

/-- What one command is related to stays so while another goes on. -/
theorem Twin.aside (twin : team.Twin worker phase state alone) (independent : team.Independent)
    (differ : worker ≠ other) (changes : team.Changes other state after) :
    team.Twin worker phase after alone := by
  have kept : ∀ location, team.Owned worker location →
      after.world.files.fileAt? location = state.world.files.fileAt? location :=
    fun location owned => changes.file location (independent.owned differ owned)
  have settled (there : (team.tasks worker).Settled state.world.files) :
      (team.tasks worker).Settled after.world.files := by
    intro parent top
    exact (there parent top).imp_right fun rest => rest.imp_right (changes.directory parent)
  have calm (still : team.Calm worker state.world.files) : team.Calm worker after.world.files := by
    intro location owned
    rw [kept location owned, still location owned]
  have written (is : team.Written worker state.world.files alone.world.files) :
      team.Written worker after.world.files alone.world.files := by
    refine ⟨settled is.settled, is.framed, fun location owned => ?_, is.rest, is.place⟩
    rw [kept location owned, is.own location owned]
  have spared (is : team.Spared worker state.world.files alone.world.files) :
      team.Spared worker after.world.files alone.world.files := by
    refine ⟨fun location owned => ?_, is.artifact⟩
    rw [kept location owned, is.own location owned]
  refine ⟨(changes.entry _ (independent.keys other worker differ.symm)).trans twin.entry, ?_⟩
  -- What relates the files to those of the work alone is about owned locations, which are kept.
  have files := twin.files
  cases phase with
  | run stage => exact written files
  | finished result => exact files.imp written spared
  | rediscover | restore | expand | write => exact ⟨files.1, settled files.2.1, calm files.2.2⟩
  | _ => exact calm files

section

variable (independent : team.Independent) (above : team.Over base state.world.files)
  (comes : team.Alone worker phase alone)
include independent above comes

theorem fileAt?_of_stops (uses : (team.tasks worker).Uses alone.world.files phase path)
    {laid : FileSystem} (is : team.Laid laid) (stops : laid.Stops path location)
    (other : ¬team.Owned worker location) :
    state.world.files.fileAt? location = team.begun.world.files.fileAt? location := by
  refine above.file location fun owner owned => ?_
  by_cases own : worker = owner
  · exact other (own ▸ owned)
  · exact independent.apart worker owner own _ _ comes path uses laid is location stops owned

theorem locate_calm (calm : team.Calm worker state.world.files)
    (uses : (team.tasks worker).Uses alone.world.files phase path) (aim : Aim) :
    state.world.files.locate aim path = base.locate aim path := by
  refine above.framed.locate (fun location stops => ?_) aim
  rw [above.laid.fileAt?]
  by_cases own : team.Owned worker location
  · exact calm location own
  · exact fileAt?_of_stops independent above comes uses above.laid stops own

theorem found_calm (unmoved : team.Unmoved) (calm : team.Calm worker state.world.files)
    (finds : (team.tasks worker).Finds alone.world.files phase path) :
    state.world.files.locateFile path = alone.world.files.locateFile path := by
  rw [FileSystem.locateFile_congr (locate_calm independent above comes calm (.finds finds) .target)]
  exact unmoved.found worker phase alone comes path finds base above.laid

/-- Whether the directory of the artifacts can be made does not depend on other commands. -/
theorem makeDirectories_calm (unmoved : team.Unmoved) (maker : team.makers worker)
    (calm : team.Calm worker state.world.files)
    (prepares : phase = .prepare) {parent : Path}
    (top : (team.tasks worker).outputBase.parent? = some parent) :
    (state.world.files.makeDirectories parent).1 =
      (team.begun.world.files.makeDirectories parent).1 := by
  subst prepares
  rw [← unmoved.directory worker alone comes parent top base above.laid]
  have wanted : (team.tasks worker).directories = parent :: parent.parents := by
    simp [Task.directories, top]
  refine (@FileSystem.makeChain_congr state.world.files base (fun now laid => team.Over laid now ∧
    ∀ location, now.fileAt? location = state.world.files.fileAt? location) _
    (fun path member now laid => ?_) (fun path _ now laid related => ?_)
    ⟨above, fun _ => rfl⟩).1
  · rintro ⟨within, same⟩
    have directory : path ∈ (team.tasks worker).directories := wanted ▸ member
    have locates : now.locate .node path = laid.locate .node path := by
      refine within.framed.locate (fun location stops => ?_) .node
      rw [within.laid.fileAt?, same]
      by_cases own : team.Owned worker location
      · exact calm location own
      · exact fileAt?_of_stops independent above comes (.directory directory) within.laid stops own
    cases done : now.makeDirectory path with
    | error problem =>
      refine .inl ⟨problem, rfl, ?_⟩
      unfold FileSystem.makeDirectory at done ⊢
      rw [← locates]
      split at done <;> simp_all
    | ok made =>
      obtain ⟨later, doneToo, next⟩ := within.make maker directory done
      refine .inr ⟨made, later, rfl, doneToo, next, fun location => ?_⟩
      rw [FileSystem.fileAt?_makeDirectory done, same]
  · exact related.1.framed.isDirectory path

theorem discovered_calm (unmoved : team.Unmoved) (calm : team.Calm worker state.world.files)
    (laid : team.Laid alone.world.files)
    (finds : ∀ path, (team.tasks worker).Searches alone.world.files path →
      (team.tasks worker).Finds alone.world.files phase path) :
    (team.tasks worker).discovered state.world.files =
      (team.tasks worker).discovered alone.world.files := by
  refine Task.discovered_congr ?_ fun path searches =>
    found_calm independent above comes unmoved calm (finds path searches)
  rw [above.workingDirectory, laid.workingDirectory]

theorem expand_calm (unmoved : team.Unmoved) (calm : team.Calm worker state.world.files)
    (laid : team.Laid alone.world.files) (expands : phase = .expand) :
    (((team.tasks worker).expand state.world.files).run state.world.files).value =
      (((team.tasks worker).expand alone.world.files).run alone.world.files).value := by
  subst expands
  refine Task.expand_congr ?_ fun path expands =>
    found_calm independent above comes unmoved calm (.expand expands)
  rw [above.workingDirectory, laid.workingDirectory]

theorem file?_calm (unmoved : team.Unmoved) (calm : team.Calm worker state.world.files)
    {artifact : Path} (member : artifact ∈ (team.tasks worker).artifacts.all) :
    state.world.files.file? artifact = team.begun.world.files.file? artifact := by
  rw [← unmoved.artifact worker artifact member base above.laid]
  refine FileSystem.file?_congr (FileSystem.locateFile_congr ?_)
  exact locate_calm independent above comes calm (.artifact member) .target

theorem isStale_calm (unmoved : team.Unmoved) (calm : team.Calm worker state.world.files)
    (same : alone.world.files = team.begun.world.files) {set : PathSet}
    (judges : phase = .judge set) :
    (team.tasks worker).isStale state.world.files set =
      (team.tasks worker).isStale alone.world.files set := by
  subst judges
  refine Task.isStale_congr (fun path finds => ?_) fun artifact member => ?_
  · exact FileSystem.modified?_congr (found_calm independent above comes unmoved calm finds)
  · rw [FileSystem.modified?_eq, FileSystem.modified?_eq, same,
      file?_calm independent above comes unmoved calm member]

theorem locate_settled (settled : (team.tasks worker).Settled state.world.files)
    (calm : team.Calm worker state.world.files) (unmoved : team.Unmoved) {text : Text}
    (writes : phase = .write text)
    (same : alone.world.files = (team.tasks worker).prepared team.begun.world.files)
    (member : path ∈ (team.tasks worker).artifacts.all) (aim : Aim) :
    state.world.files.locate aim path = alone.world.files.locate aim path := by
  subst writes
  have halts := unmoved.place worker _ alone comes path (.artifact member) base above.laid aim
  rw [Task.prepared_of_settled (settled.framed above.framed)] at halts
  rw [locate_calm independent above comes calm (.artifact member), FileSystem.locate_eq_place,
    FileSystem.locate_eq_place, same, halts]
  refine FileSystem.place_congr fun location _ _ => ?_
  rw [above.laid.fileAt?, Task.fileAt?_prepared]

theorem locate_written (written : team.Written worker state.world.files alone.world.files)
    (still : team.Still worker path)
    (uses : (team.tasks worker).Uses alone.world.files phase path) (aim : Aim) :
    (state.world.files.locate aim path).map Place.timeless =
      (alone.world.files.locate aim path).map Place.timeless := by
  have halts := still base above.laid aim
  rw [Task.prepared_of_settled (written.settled.framed above.framed), ← above.framed.halt,
    ← written.framed.halt] at halts
  rw [FileSystem.locate_eq_place, FileSystem.locate_eq_place, halts]
  refine FileSystem.place_timeless fun location ends stops => ?_
  by_cases own : team.Owned worker location
  · exact written.own location own
  · have site : base.Stops path location :=
      ⟨aim, ends, by rw [← above.framed.halt, halts, stops]⟩
    rw [fileAt?_of_stops independent above comes uses above.laid site own, written.rest location own]

end

/-- Refreshed artifacts are those of the beginning but for their times. -/
theorem Calm.refresh (calm : team.Calm worker now) (time instead : Instant) :
    team.Spared worker (Freshness.refresh time now (team.tasks worker).artifacts.all).2
      (Freshness.refresh instead team.begun.world.files (team.tasks worker).artifacts.all).2 := by
  refine ⟨fun location owned => ?_, fun artifact _ => ?_⟩
  · rw [(Freshness.retimed_refresh _ _ _).timeless, calm location owned]
  · have retimed := Freshness.retimed_refresh instead team.begun.world.files
      (team.tasks worker).artifacts.all
    exact (FileSystem.file?_timeless retimed.framed fun location _ =>
      (retimed.timeless location).symm).symm

theorem Calm.spared (calm : team.Calm worker now) (unmoved : team.Unmoved)
    (laid : team.Laid base) : team.Spared worker now base :=
  ⟨fun location owned => by rw [calm location owned],
    fun artifact member => by rw [unmoved.artifact worker artifact member base laid]⟩

/-- An artifact is written in the same place with the same contents. -/
theorem Calm.write {time instead : Instant} {contents : Contents} {made madeToo : FileSystem}
    (calm : team.Calm worker now) (settled : (team.tasks worker).Settled now)
    (above : team.Over base now)
    (place : ∀ artifact ∈ (team.tasks worker).artifacts.all, team.Still worker artifact)
    (member : path ∈ (team.tasks worker).artifacts.all)
    (same : now.outlet? path =
      ((team.tasks worker).prepared team.begun.world.files).outlet? path)
    (done : now.write path time contents = .ok made)
    (doneToo : ((team.tasks worker).prepared team.begun.world.files).write path instead contents =
      .ok madeToo) : team.Written worker made madeToo := by
  obtain ⟨location, leads, rfl⟩ := FileSystem.write_eq_ok.mp done
  obtain ⟨there, leadsToo, rfl⟩ := FileSystem.write_eq_ok.mp doneToo
  obtain rfl : location = there := Option.some.inj (leads.symm.trans (same.trans leadsToo))
  have free := FileSystem.free_of_outlet? leads
  have freeToo := FileSystem.free_of_outlet? leadsToo
  have owned := above.owned member leads
  refine ⟨settled.framed (.put free _), (FileSystem.Framed.put freeToo _).symm, ?_, ?_, place⟩
  · intro other ownedToo
    rw [FileSystem.fileAt?_put free, FileSystem.fileAt?_put freeToo]
    by_cases here : other = location
    · rw [if_pos here, if_pos here, Task.fileAt?_prepared, calm location owned]
      cases team.begun.world.files.fileAt? location <;> rfl
    · rw [if_neg here, if_neg here, Task.fileAt?_prepared, calm other ownedToo]
  · intro other apart
    rw [FileSystem.fileAt?_put freeToo, if_neg, Task.fileAt?_prepared]
    rintro rfl
    exact apart owned

/-- A program writes the same in the same place. -/
theorem Written.respond {nowToo aloneToo laidToo : FileSystem}
    (written : team.Written worker now laidToo) (above : team.Over base now)
    (member : path ∈ (team.tasks worker).artifacts.all)
    (writes : FileSystem.Writes path now nowToo)
    (writesToo : FileSystem.Writes path laidToo aloneToo)
    (leads : now.outlet? path = laidToo.outlet? path)
    (same : (nowToo.file? path).map (File.stamped 0) = (aloneToo.file? path).map (File.stamped 0)) :
    team.Written worker nowToo aloneToo := by
  have elsewhere {first second : FileSystem} {location : Location}
      (writes : FileSystem.Writes path first second) (apart : first.outlet? path ≠ some location) :
      second.fileAt? location = first.fileAt? location := by
    rcases writes with rfl | ⟨there, file, leads, rfl⟩
    · rfl
    · rw [FileSystem.fileAt?_put (FileSystem.free_of_outlet? leads), if_neg]
      rintro rfl
      exact apart leads
  refine ⟨written.settled.framed writes.framed, writesToo.framed.symm.trans written.framed, ?_, ?_,
    written.place⟩
  · intro location owned
    by_cases here : now.outlet? path = some location
    · rwa [FileSystem.file?_of_outlet? (writes.framed.outlet? path ▸ here),
        FileSystem.file?_of_outlet? (writesToo.framed.outlet? path ▸ leads ▸ here)] at same
    · rw [elsewhere writes here, elsewhere writesToo (leads ▸ here), written.own location owned]
  · intro location apart
    rw [elsewhere writesToo, written.rest location apart]
    intro here
    exact apart (above.owned member (leads.trans here))

end Team

end ShaderBuild
