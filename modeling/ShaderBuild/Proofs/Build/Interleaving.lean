import Mathlib.Logic.Function.Basic
import ShaderBuild.Proofs.Build.Known
/-!
Commands that are worked on side by side, among the same files and with the same known dependencies.
However their steps are interleaved, the files are those of the beginning but for directories that
were made for artifacts and for artifacts, and each step changes artifacts and dependencies of its
own command alone.
-/
namespace ShaderBuild

/-- The directories that are made for the artifacts where they are missing: the later ones first. -/
def Task.directories (task : Task) : List Path :=
  match task.outputBase.parent? with
  | none => []
  | some parent => parent :: parent.parents

/-- Commands, the tools that they use, and the state in which the work on them begins. -/
structure Team (ι : Type) where
  tasks : ι → Task
  tools : Tools
  begun : BuildState
  /-- The commands that come to make the directories of their artifacts. -/
  makers : ι → Prop

namespace Team

open ShaderBuild.Task (Phase)

section

variable {ι : Type} (team : Team ι)

/-- The files of the beginning, with some of the directories for artifacts made. -/
inductive Laid : FileSystem → Prop where
  | start : Laid team.begun.world.files
  | make {laid made : FileSystem} {worker : ι} {path : Path} (earlier : Laid laid)
      (maker : team.makers worker) (wanted : path ∈ (team.tasks worker).directories)
      (done : laid.makeDirectory path = .ok made) : Laid made

/-- An artifact of the command may come to stand at the location. -/
def Owned (worker : ι) (location : Location) : Prop :=
  ∃ laid, team.Laid laid ∧ ∃ artifact ∈ (team.tasks worker).artifacts.all,
    laid.outlet? artifact = some location

/-- The files differ from those that are laid in artifacts alone, and none is lost. -/
structure Over (base now : FileSystem) : Prop where
  laid : team.Laid base
  framed : now.Framed base
  file : ∀ location, (∀ worker, ¬team.Owned worker location) →
    now.fileAt? location = team.begun.world.files.fileAt? location
  kept : ∀ location, now.fileAt? location = none →
    team.begun.world.files.fileAt? location = none

/-- What a step in the work on one command leaves as it was. -/
structure Changes (worker : ι) (before after : BuildState) : Prop where
  directory : ∀ path, before.world.files.isDirectory path = true →
    after.world.files.isDirectory path = true
  file : ∀ location, ¬team.Owned worker location →
    after.world.files.fileAt? location = before.world.files.fileAt? location
  entry : ∀ key, (team.tasks worker).key.same key = false →
    after.cache.find? key = before.cache.find? key

/-- The work on the command alone comes to the phase and the state. -/
def Alone (worker : ι) (phase : Phase) (state : BuildState) : Prop :=
  Task.Comes (team.tasks worker) team.tools team.begun phase state

/-- The phases and the state to which the work on all commands may come, in steps that are
interleaved in any way. -/
inductive Reaches [DecidableEq ι] : (ι → Phase) → BuildState → Prop where
  | start : Reaches (fun _ => .lookup) team.begun
  | step {phases : ι → Phase} {state : BuildState} (earlier : Reaches phases state) (worker : ι)
      (running : (phases worker).result? = none) :
      Reaches
        (Function.update phases worker
          ((team.tasks worker).step team.tools (phases worker) state).1)
        ((team.tasks worker).step team.tools (phases worker) state).2

/-- Tools change nothing but the artifact that they are asked for. -/
def Confined : Prop :=
  ∀ worker, (team.tasks worker).Confined team.tools

end

variable {ι : Type} {team : Team ι} {worker : ι} {base laid now made : FileSystem} {location : Location}

namespace Laid

theorem eq_begun (is : team.Laid laid) (none : ∀ worker, ¬team.makers worker) :
    laid = team.begun.world.files := by
  cases is with
  | start => rfl
  | make _ maker => exact absurd maker (none _)

theorem fileAt? (is : team.Laid laid) (location : Location) :
    laid.fileAt? location = team.begun.world.files.fileAt? location := by
  induction is with
  | start => rfl
  | make earlier maker wanted done ih => rw [FileSystem.fileAt?_makeDirectory done, ih]

theorem workingDirectory (is : team.Laid laid) :
    laid.workingDirectory = team.begun.world.files.workingDirectory := by
  induction is with
  | start => rfl
  | make earlier maker wanted done ih => rw [← (FileSystem.grown_makeDirectory done).home, ih]

/-- Any of the files laid may have the directory of a command's artifacts made. -/
theorem prepared (is : team.Laid laid) (maker : team.makers worker) :
    team.Laid ((team.tasks worker).prepared laid) := by
  unfold Task.prepared
  split
  · exact is
  · rename_i parent top
    have wanted : (team.tasks worker).directories = parent :: parent.parents := by
      simp [Task.directories, top]
    refine FileSystem.makeChain_induction (motive := team.Laid) (fun path member _ _ done laid => ?_)
      is
    exact laid.make maker (wanted ▸ member) done

end Laid

theorem Over.owned (above : team.Over base now) {artifact : Path}
    (member : artifact ∈ (team.tasks worker).artifacts.all)
    (leads : now.outlet? artifact = some location) : team.Owned worker location :=
  ⟨base, above.laid, artifact, member, above.framed.outlet? _ ▸ leads⟩

theorem Over.absent (above : team.Over base now) (location : Location)
    (absent : now.fileAt? location = none) : base.fileAt? location = none := by
  rw [above.laid.fileAt?]
  exact above.kept location absent

theorem Over.workingDirectory (above : team.Over base now) :
    now.workingDirectory = team.begun.world.files.workingDirectory := by
  rw [above.framed.home, above.laid.workingDirectory]

theorem over_start : team.Over team.begun.world.files team.begun.world.files :=
  ⟨.start, .refl _, fun _ _ => rfl, fun _ absent => absent⟩

/-- A directory that is made for artifacts is made among the files laid too. -/
theorem Over.make (above : team.Over base now) {path : Path} (maker : team.makers worker)
    (wanted : path ∈ (team.tasks worker).directories) (done : now.makeDirectory path = .ok made) :
    ∃ later, base.makeDirectory path = .ok later ∧ team.Over later made := by
  obtain ⟨later, doneToo, framed⟩ :=
    FileSystem.makeDirectory_framed above.framed above.absent done
  refine ⟨later, doneToo, above.laid.make maker wanted doneToo, framed, fun location free => ?_,
    fun location absent => ?_⟩
  · rw [FileSystem.fileAt?_makeDirectory done, above.file location free]
  · rw [FileSystem.fileAt?_makeDirectory done] at absent
    exact above.kept location absent

/-- The directory of a command's artifacts may be made. -/
theorem Over.prepared (above : team.Over base now) (maker : team.makers worker) :
    ∃ later, team.Over later ((team.tasks worker).prepared now) := by
  unfold Task.prepared
  split
  · exact ⟨base, above⟩
  · rename_i parent top
    have wanted : (team.tasks worker).directories = parent :: parent.parents := by
      simp [Task.directories, top]
    refine FileSystem.makeChain_induction (motive := fun files => ∃ later, team.Over later files)
      ?_ ⟨base, above⟩
    rintro path member files made done ⟨later, above⟩
    obtain ⟨last, _, aboveToo⟩ := above.make maker (wanted ▸ member) done
    exact ⟨last, aboveToo⟩

/-- Files are rewritten in the frame that there is, at artifacts of one command. -/
structure Rewritten (team : Team ι) (worker : ι) (before after : FileSystem) : Prop where
  framed : before.Framed after
  file : ∀ location, ¬team.Owned worker location →
    after.fileAt? location = before.fileAt? location
  kept : ∀ location, after.fileAt? location = none → before.fileAt? location = none

/-- An artifact is written. -/
theorem Over.writes (above : team.Over base now) {artifact : Path}
    (member : artifact ∈ (team.tasks worker).artifacts.all)
    (writes : FileSystem.Writes artifact now made) : team.Rewritten worker now made := by
  refine ⟨writes.framed, fun other free => ?_, fun other absent => ?_⟩
  all_goals rcases writes with rfl | ⟨location, file, leads, rfl⟩
  · rfl
  · have own := above.owned member leads
    rw [FileSystem.fileAt?_put (FileSystem.free_of_outlet? leads), if_neg]
    rintro rfl
    exact free own
  · exact absent
  · rw [FileSystem.fileAt?_put (FileSystem.free_of_outlet? leads)] at absent
    split at absent
    · cases absent
    · exact absent

/-- The artifacts are given another time. -/
theorem Over.refresh (above : team.Over base now) (worker : ι) (time : Instant) :
    team.Rewritten worker now
      (Freshness.refresh time now (team.tasks worker).artifacts.all).2 := by
  have retimed := Freshness.retimed_refresh time now (team.tasks worker).artifacts.all
  refine ⟨retimed.framed, fun location free => ?_, fun location absent => ?_⟩
  · refine Freshness.fileAt?_refresh fun artifact member leads => ?_
    exact free (above.owned member leads)
  · rcases retimed.file location with same | changed
    · rw [← same, absent]
    · rw [changed, Option.map_eq_none_iff] at absent
      exact absent

theorem Over.rewritten (above : team.Over base now) (rewritten : team.Rewritten worker now made) :
    team.Over base made := by
  refine ⟨above.laid, rewritten.framed.symm.trans above.framed, fun location free => ?_,
    fun location absent => above.kept location (rewritten.kept location absent)⟩
  rw [rewritten.file location (free worker), above.file location free]

variable {phase next : Phase} {state after : BuildState}

namespace Changes

theorem refl (worker : ι) (state : BuildState) : team.Changes worker state state :=
  ⟨fun _ there => there, fun _ _ => rfl, fun _ _ => rfl⟩

theorem trans {between : BuildState} (once : team.Changes worker state between)
    (again : team.Changes worker between after) : team.Changes worker state after :=
  ⟨fun path there => again.directory path (once.directory path there),
    fun location apart => (again.file location apart).trans (once.file location apart),
    fun key other => (again.entry key other).trans (once.entry key other)⟩

/-- Dependencies are stored under the key of the command. -/
theorem insert (worker : ι) (state : BuildState) (set : PathSet) : team.Changes worker state
    { state with cache := state.cache.insert (team.tasks worker).key set } := by
  refine ⟨fun _ there => there, fun _ _ => rfl, fun key other => ?_⟩
  dsimp only
  rw [DependencyStore.find?_insert, if_neg]
  rw [← DependencyKey.same_iff, other]
  exact Bool.false_ne_true

theorem rewrite {world : World} {launches : List Launch}
    (rewritten : team.Rewritten worker state.world.files world.files) :
    team.Changes worker state { state with world := world, launches := launches } :=
  ⟨fun path there => by rwa [← rewritten.framed.isDirectory path], rewritten.file, fun _ _ => rfl⟩

theorem prepare (worker : ι) (state : BuildState) :
    team.Changes worker state { state with
      world := { state.world with files := (team.tasks worker).prepared state.world.files } } :=
  ⟨fun _ => (Task.grown_prepared _ _).isDirectory, fun _ _ => Task.fileAt?_prepared _ _ _,
    fun _ _ => rfl⟩

end Changes

/-- A step changes artifacts and dependencies of its own command alone. -/
theorem changes_of_move (confined : team.Confined)
    (makes : phase = .prepare → team.makers worker)
    (move : Task.Move (team.tasks worker) team.tools phase state next after)
    (above : team.Over base state.world.files) :
    team.Changes worker state after ∧ ∃ later, team.Over later after.world.files := by
  have still : team.Changes worker state state ∧ ∃ later, team.Over later state.world.files :=
    ⟨.refl worker state, base, above⟩
  have rewritten {world : World} (launches : List Launch)
      (rewritten : team.Rewritten worker state.world.files world.files) :
      team.Changes worker state { state with world := world, launches := launches } ∧
        ∃ later, team.Over later world.files :=
    ⟨.rewrite rewritten, base, above.rewritten rewritten⟩
  have written {stage : ToolStage} {reply : ToolReply} {world : World}
      (ended : team.tools.respond state.launches ((team.tasks worker).launchOf stage) state.world =
        (reply, world)) : team.Rewritten worker state.world.files world.files :=
    above.writes (Task.output_mem _ _) (confined worker _ _ _ _ _ ended)
  cases move with
  | store set => exact ⟨.insert worker state set, base, above⟩
  | restore set => exact ⟨.insert worker state set, base, above⟩
  | refreshed done =>
    have retimed := above.refresh worker state.world.now
    rw [done] at retimed
    exact @rewritten (state.world.after _) state.launches retimed
  | unrefreshed failed =>
    have retimed := above.refresh worker state.world.now
    rw [failed] at retimed
    exact @rewritten (state.world.after _) state.launches retimed
  | prepared => exact ⟨.prepare worker state, above.prepared (makes rfl)⟩
  | unprepared => exact ⟨.prepare worker state, above.prepared (makes rfl)⟩
  | written done =>
    exact @rewritten (state.world.after _) state.launches
      (above.writes (Task.expanded_mem _) (FileSystem.writes_of_write done))
  | exited _ ended => exact rewritten _ (written ended)
  | succeeded _ ended => exact rewritten _ (written ended)
  | _ => exact still

theorem over_of_reaches [DecidableEq ι] {phases : ι → Phase} (confined : team.Confined)
    (makers : ∀ worker, team.makers worker) (noFile : team.begun.fileLevel = none)
    (reaches : team.Reaches phases state) :
    state.fileLevel = none ∧ ∃ base, team.Over base state.world.files := by
  induction reaches with
  | start => exact ⟨noFile, _, over_start⟩
  | @step phases state earlier worker running ih =>
    obtain ⟨quiet, base, now⟩ := ih
    have above : team.Over base state.quiet.world.files := now
    have move := @Task.move_of_step (team.tasks worker) team.tools (phases worker) state quiet running
    exact ⟨move.fileLevel.trans quiet,
      (changes_of_move confined (fun _ => makers worker) move above).2⟩

end Team

end ShaderBuild
