import ShaderBuild.Build.State
import ShaderBuild.Proofs.FileSystem.Outlet
/-!
What logging does to the files. Entries are added to the file that keeps the log; no node comes or
goes, and without a log file nothing changes.
-/
namespace ShaderBuild

namespace FileSystem

theorem node?_addLog (files : FileSystem) (text : Text) (now : Instant) (location : Location) :
    (files.addLog text now).node? location = (files.node? location).map fun node =>
      match node with
      | .file file => .file (file.addLog text now)
      | other => other := by
  unfold node?
  split
  · rfl
  · dsimp only [addLog]
    induction files.entries with
    | nil => rfl
    | cons entry rest ih =>
      obtain ⟨place, node⟩ := entry
      cases node <;>
        · rw [List.map_cons, List.lookup_cons, List.lookup_cons]
          cases location == place with
          | true => rfl
          | false => exact ih

theorem framed_addLog (files : FileSystem) (text : Text) (now : Instant) :
    files.Framed (files.addLog text now) := by
  refine ⟨rfl, rfl, fun location => ?_⟩
  rw [frame?, frame?, node?_addLog]
  cases files.node? location with
  | none => rfl
  | some node => cases node <;> rfl

theorem isFile_addLog (files : FileSystem) (text : Text) (now : Instant) (path : Path) :
    (files.addLog text now).isFile path = files.isFile path := by
  have there (location : Location) : ((files.addLog text now).fileAt? location).isSome =
      (files.fileAt? location).isSome := by
    rw [fileAt?, fileAt?, node?_addLog]
    cases files.node? location with
    | none => rfl
    | some node => cases node <;> rfl
  rw [isFile_eq, isFile_eq, file?, file?, ← (framed_addLog files text now).outlet?]
  cases files.outlet? path with
  | none => rfl
  | some location => exact there location

/-- What may become of a location while entries are logged up to a level: a file that keeps the log
is written. -/
inductive Noted (level : Option Log.Level) : Option Node → Option Node → Prop where
  | same (node : Option Node) : Noted level node node
  | added {old new : File} (kept : level ≠ none) (keeps : old.keepsLog = true)
      (still : new.keepsLog = true) : Noted level (some (.file old)) (some (.file new))

theorem Noted.trans {level : Option Log.Level} {first second third : Option Node}
    (once : Noted level first second) (again : Noted level second third) :
    Noted level first third := by
  cases once with
  | same => exact again
  | added kept keeps still =>
    cases again with
    | same => exact .added kept keeps still
    | added _ _ stillToo => exact .added kept keeps stillToo

theorem noted_addLog {level : Option Log.Level} (kept : level ≠ none) (files : FileSystem)
    (text : Text) (now : Instant) (location : Location) :
    Noted level (files.node? location) ((files.addLog text now).node? location) := by
  rw [node?_addLog]
  cases files.node? location with
  | none => exact .same _
  | some node =>
    cases node with
    | file file =>
      dsimp only [Option.map_some, File.addLog]
      split
      · exact .added kept ‹_› ‹_›
      · exact .same _
    | directory => exact .same _
    | link target => exact .same _

end FileSystem

namespace World

theorem isFile_record (world : World) (level : Option Log.Level) (entries : List Log.Entry)
    (path : Path) : (world.record level entries).files.isFile path = world.files.isFile path := by
  cases level with
  | none => rfl
  | some level =>
    unfold record
    dsimp only
    split
    · rfl
    · exact FileSystem.isFile_addLog _ _ _ _

theorem framed_record (world : World) (level : Option Log.Level) (entries : List Log.Entry) :
    world.files.Framed (world.record level entries).files := by
  cases level with
  | none => exact .refl _
  | some level =>
    unfold record
    dsimp only
    split
    · exact .refl _
    · exact FileSystem.framed_addLog _ _ _

theorem noted_record (world : World) (level : Option Log.Level) (entries : List Log.Entry)
    (location : Location) : FileSystem.Noted level (world.files.node? location)
      ((world.record level entries).files.node? location) := by
  cases level with
  | none => exact .same _
  | some level =>
    unfold record
    dsimp only
    split
    · exact .same _
    · exact FileSystem.noted_addLog (Option.some_ne_none level) _ _ _ _

end World

namespace BuildState

/-- Nothing happened but that entries were logged, and perhaps dependencies stored. -/
structure Annotated (before after : BuildState) : Prop where
  launches : after.launches = before.launches
  fileLevel : after.fileLevel = before.fileLevel
  framed : before.world.files.Framed after.world.files
  node : ∀ location, FileSystem.Noted before.fileLevel (before.world.files.node? location)
    (after.world.files.node? location)

namespace Annotated

variable {first second third : BuildState}

theorem refl (state : BuildState) : Annotated state state :=
  ⟨rfl, rfl, .refl _, fun _ => .same _⟩

theorem trans (once : Annotated first second) (again : Annotated second third) :
    Annotated first third :=
  ⟨again.launches.trans once.launches, again.fileLevel.trans once.fileLevel,
    once.framed.trans again.framed,
    fun location => (once.node location).trans (once.fileLevel ▸ again.node location)⟩

theorem record (state : BuildState) (entries : List Log.Entry) :
    Annotated state (state.record entries) :=
  ⟨rfl, rfl, World.framed_record _ _ _, World.noted_record _ _ _⟩

/-- An expansion reads files and logs. -/
theorem expanding {α : Type} (state : BuildState) (expansion : Expanding α) :
    Annotated state (state.expanding expansion).2 := by
  induction expansion generalizing state with
  | ended log result => exact .record state log
  | reading log path next ih => exact (Annotated.record state log).trans (ih _ _)

/-- A file that does not keep the log is left alone. -/
theorem fileAt? {location : Location} (annotated : Annotated first second)
    (plain : ∀ file, first.world.files.fileAt? location = some file → file.keepsLog = false) :
    second.world.files.fileAt? location = first.world.files.fileAt? location := by
  have noted := annotated.node location
  unfold FileSystem.fileAt? at plain ⊢
  generalize first.world.files.node? location = old at noted plain
  generalize second.world.files.node? location = new at noted
  cases noted with
  | same => rfl
  | added kept keeps still => cases keeps.symm.trans (plain _ rfl)

end Annotated

end BuildState

end ShaderBuild
