import ShaderBuild.Proofs.Build.Move
import ShaderBuild.Proofs.Dependency.Consulted
import ShaderBuild.Proofs.Dependency.Store
import ShaderBuild.Proofs.FileSystem.Directories
import ShaderBuild.Proofs.Freshness
/-!
The known dependencies of a command are those among the files. That stays so while artifacts are
written and refreshed, as long as the search for dependencies consults no artifact.
-/
namespace ShaderBuild

namespace Task

variable {task : Task} {files first second : FileSystem} {cache : DependencyStore}
  {set : PathSet}

/-- Another run of the command. -/
def again (task : Task) (force dryRun : Bool) (profile : Text) : Task :=
  { task with settings := { task.settings with force, dryRun, glProfile := profile } }

/-- Where the search for dependencies succeeds, nothing that it consults leads to an artifact. -/
def Apart (task : Task) (files : FileSystem) : Prop :=
  ∀ set, task.discovered files = .ok set →
    ∀ path, Consults files task.searchPath task.source task.headers path →
      ∀ artifact ∈ task.artifacts.all, ∀ location, files.outlet? artifact = some location →
        files.outlet? path ≠ some location

/-- What a launch for a stage changes is at most the output of the stage. -/
def Confined (task : Task) (tools : Tools) : Prop :=
  ∀ launches stage world reply after,
    tools.respond launches (task.launchOf stage) world = (reply, after) →
      FileSystem.Writes (stage.output task.artifacts) world.files after.files

/-- The directory of the artifacts is there. -/
def Settled (task : Task) (files : FileSystem) : Prop :=
  ∀ parent, task.outputBase.parent? = some parent → files.Settled parent

theorem Settled.framed (settled : task.Settled first) (same : first.Framed second) :
    task.Settled second :=
  fun parent top => same.settled (settled parent top)

theorem prepared_of_settled (settled : task.Settled files) : task.prepared files = files := by
  unfold prepared
  split
  · rfl
  · rw [FileSystem.makeDirectories_of_settled (settled _ ‹_›)]

theorem settled_prepared (made : ∀ parent, task.outputBase.parent? = some parent →
    (files.makeDirectories parent).1 = .ok ()) : task.Settled (task.prepared files) := by
  intro parent top
  have done := made parent top
  have same : task.prepared files = (files.makeDirectories parent).2 := by simp [prepared, top]
  rw [same]
  apply FileSystem.settled_of_makeDirectories
  rw [← done]

theorem grown_prepared (task : Task) (files : FileSystem) : files.Grown (task.prepared files) := by
  unfold prepared
  split
  · exact .refl files
  · exact FileSystem.grown_makeDirectories files _

/-- No file comes or goes while the directory of the artifacts is made. -/
theorem fileAt?_prepared (task : Task) (files : FileSystem) (location : Location) :
    (task.prepared files).fileAt? location = files.fileAt? location := by
  unfold prepared
  split
  · rfl
  · refine FileSystem.makeChain_induction
      (motive := fun now => now.fileAt? location = files.fileAt? location)
      (fun path _ now made done same => ?_) rfl
    rw [FileSystem.fileAt?_makeDirectory done, same]

theorem expanded_mem (artifacts : Artifacts) : artifacts.expanded ∈ artifacts.all := by
  simp [Artifacts.all]

theorem output_mem (stage : ToolStage) (artifacts : Artifacts) :
    stage.output artifacts ∈ artifacts.all := by
  cases stage <;> simp [ToolStage.output, Artifacts.all]

/-- The known dependencies are those among the files, and consult no artifact. -/
structure Knows (task : Task) (files : FileSystem) (cache : DependencyStore) (set : PathSet) :
    Prop where
  known : cache.find? task.key = some set
  found : task.discovered files = .ok set
  apart : task.Apart files

theorem knows_insert (found : task.discovered files = .ok set) (apart : task.Apart files) :
    task.Knows files (cache.insert task.key set) set :=
  ⟨DependencyStore.find?_insert_self, found, apart⟩

theorem knows_again {force dryRun : Bool} {profile : Text} :
    (task.again force dryRun profile).Knows files cache set ↔ task.Knows files cache set :=
  ⟨fun knows => ⟨knows.known, knows.found, knows.apart⟩,
    fun knows => ⟨knows.known, knows.found, knows.apart⟩⟩

namespace Knows

/-- Files may change that are not consulted, and in what does not matter to the search. -/
theorem agree (knows : task.Knows first cache set) (framed : first.Framed second)
    (texts : ∀ path ∈ (discover first task.searchPath task.source task.headers).reads first,
      ∀ text, second.readText path = .ok text ↔ first.readText path = .ok text)
    (places : ∀ path, Consults first task.searchPath task.source task.headers path →
      second.isFile path = first.isFile path) : task.Knows second cache set := by
  obtain ⟨found, consults⟩ := discover_agree knows.found framed.home.symm texts places
  refine ⟨knows.known, found, ?_⟩
  intro other _ path consulted artifact member location leads
  rw [← framed.outlet?] at leads ⊢
  exact knows.apart set knows.found path (consults path consulted) artifact member location leads

/-- Writing an artifact changes nothing about it. -/
theorem writes {artifact : Path} (knows : task.Knows first cache set)
    (member : artifact ∈ task.artifacts.all) (writes : FileSystem.Writes artifact first second) :
    task.Knows second cache set := by
  have same : ∀ path, Consults first task.searchPath task.source task.headers path →
      second.file? path = first.file? path := by
    intro path consulted
    exact writes.file? (knows.apart set knows.found path consulted artifact member)
  refine knows.agree writes.framed (fun path member text => ?_) fun path consulted => ?_
  · rw [FileSystem.readText_eq_ok, FileSystem.readText_eq_ok, same path (.read member)]
  · rw [FileSystem.isFile_eq, FileSystem.isFile_eq, same path consulted]

/-- Giving files another time changes nothing about it. -/
theorem retimed {now : Instant} (knows : task.Knows first cache set)
    (retimed : FileSystem.Retimed now first second) : task.Knows second cache set :=
  knows.agree retimed.framed (fun path _ => retimed.readText_eq_ok path)
    fun path _ => retimed.isFile path

end Knows

variable {tools : Tools} {phase next : Phase} {state after : BuildState}

/-- What a run holds to that began among these files: nothing is changed before the directory of the
artifacts is made, and from then on the dependencies are found afresh and known as they are. -/
def Renewing (task : Task) (begun : FileSystem) (state : BuildState) : Phase → Prop
  | .lookup | .discover | .store _ | .judge _ | .prepare => state.world.files = begun
  | .rediscover => task.Settled state.world.files ∧ state.world.files = task.prepared begun
  | .restore set => task.Settled state.world.files ∧ task.Apart state.world.files ∧
    task.discovered state.world.files = .ok set
  | .expand | .write _ | .run _ | .finished (.error (.stageFailed _ _ _)) |
    .finished (.ok .rebuilt) =>
    task.Settled state.world.files ∧ ∃ set, task.Knows state.world.files state.cache set
  | .refresh | .finished _ => True

private theorem renewing_output {stage : ToolStage} {world : World}
    (confined : task.Confined tools) {reply : ToolReply}
    (ended : tools.respond state.launches (task.launchOf stage) state.world = (reply, world))
    (renewed : task.Settled state.world.files ∧
      ∃ set, task.Knows state.world.files state.cache set) :
    task.Settled world.files ∧ ∃ set, task.Knows world.files state.cache set := by
  obtain ⟨settled, set, knows⟩ := renewed
  have writes := confined _ _ _ _ _ ended
  exact ⟨settled.framed writes.framed, set, knows.writes (output_mem _ _) writes⟩

theorem renewing_of_move {begun : FileSystem} (apart : task.Apart (task.prepared begun))
    (confined : task.Confined tools) (move : Move task tools phase state next after)
    (renewing : task.Renewing begun state phase) : task.Renewing begun after next := by
  cases move with
  | hit => exact renewing
  | miss => exact renewing
  | discovered => exact renewing
  | undiscovered => trivial
  | store => exact renewing
  | fresh => trivial
  | report => trivial
  | rebuild => exact renewing
  | refreshed => trivial
  | unrefreshed => trivial
  | prepared made =>
    refine ⟨settled_prepared made, ?_⟩
    rw [← show state.world.files = begun from renewing]
  | unprepared => trivial
  | rediscovered found => exact ⟨renewing.1, by rw [renewing.2]; exact apart, found⟩
  | unrediscovered => trivial
  | restore set => exact ⟨renewing.1, set, knows_insert renewing.2.2 renewing.2.1⟩
  | expanded => exact renewing
  | unexpanded => trivial
  | written done =>
    obtain ⟨settled, set, knows⟩ := renewing
    have writes := FileSystem.writes_of_write done
    exact ⟨settled.framed writes.framed, set, knows.writes (expanded_mem _) writes⟩
  | unwritten => trivial
  | unstarted => exact renewing
  | exited _ ended =>
    have renewed := renewing_output confined ended renewing
    exact renewed
  | @succeeded _ stage _ _ _ ended =>
    have renewed := renewing_output confined ended renewing
    cases stage <;> exact renewed

theorem knows_of_stageFailed {stage : ToolStage} {launch : Launch} {failure : StageFailure}
    (noFile : state.fileLevel = none) (apart : task.Apart (task.prepared state.world.files))
    (confined : task.Confined tools)
    (failed : (task.process tools state).1 = .error (.stageFailed stage launch failure)) :
    task.Settled (task.process tools state).2.world.files ∧
      ∃ set, task.Knows (task.process tools state).2.world.files
        (task.process tools state).2.cache set := by
  have ends : task.Renewing state.world.files (task.process tools state).2.quiet
      (.finished (task.process tools state).1) := by
    refine complete_induction
      (motive := fun phase now => task.Renewing state.world.files now phase) ?_ .lookup state noFile rfl
    exact fun phase now next after move => renewing_of_move apart confined move
  rw [failed] at ends
  exact ends

end Task

end ShaderBuild
