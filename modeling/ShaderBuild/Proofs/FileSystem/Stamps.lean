import ShaderBuild.FileSystem.World
import ShaderBuild.Proofs.Freshness
/-!
Changes of the world that are stamped by its clock. Where the clock does not go back, no file comes
to be newer than the present.
-/
namespace ShaderBuild

namespace World

variable {before after : World} {files : FileSystem} {path : Path}

/-- The clock never goes back; it may stand still. -/
def Steady (world : World) : Prop :=
  ∀ first second, first ≤ second → world.clock first ≤ world.clock second

/-- The clock went on, and a file that is not as it was bears a time that the clock has shown. -/
structure Stamped (before after : World) : Prop where
  clock : after.clock = before.clock
  ticks : before.ticks ≤ after.ticks
  file : ∀ location file, after.files.fileAt? location = some file →
    before.files.fileAt? location = some file ∨
      ∃ tick ≤ after.ticks, file.modified = before.clock tick

/-- No file to which one of the paths leads is newer than the present. -/
def Past (world : World) (paths : List Path) : Prop :=
  ∀ path ∈ paths, ∀ file, world.files.file? path = some file → file.modified ≤ world.now

namespace Stamped

theorem refl (world : World) : Stamped world world :=
  ⟨rfl, Nat.le_refl _, fun _ _ there => .inl there⟩

theorem steady (stamped : Stamped before after) (steady : before.Steady) : after.Steady := by
  unfold Steady
  rw [stamped.clock]
  exact steady

theorem now (stamped : Stamped before after) (steady : before.Steady) : before.now ≤ after.now := by
  unfold World.now
  rw [stamped.clock]
  exact steady _ _ stamped.ticks

theorem past {paths : List Path} (stamped : Stamped before after) (steady : before.Steady)
    (framed : before.files.Framed after.files) (past : before.Past paths) : after.Past paths := by
  intro path member file found
  obtain ⟨location, leads, there⟩ := FileSystem.file?_eq_some.mp found
  rw [← framed.outlet?] at leads
  rcases stamped.file location file there with old | ⟨tick, shown, stamp⟩
  · have known := past path member file (FileSystem.file?_eq_some.mpr ⟨location, leads, old⟩)
    exact Int.le_trans known (stamped.now steady)
  · rw [stamp, World.now, stamped.clock]
    exact steady _ _ shown

end Stamped

theorem stamped_put {location : Location} {file : File}
    (free : before.files.frame? location = none) (present : file.modified = before.now) :
    Stamped before (before.after (before.files.put location (.file file))) := by
  refine ⟨rfl, Nat.le_succ _, fun other found there => ?_⟩
  have look : (before.after (before.files.put location (.file file))).files.fileAt? other =
      if other = location then some file else before.files.fileAt? other :=
    FileSystem.fileAt?_put free file other
  rw [look] at there
  by_cases same : other = location
  · rw [if_pos same] at there
    obtain rfl := Option.some.inj there
    exact .inr ⟨before.ticks, Nat.le_succ _, present⟩
  · rw [if_neg same] at there
    exact .inl there

theorem stamped_write {contents : Contents}
    (done : before.files.write path before.now contents = .ok files) :
    Stamped before (before.after files) := by
  obtain ⟨location, leads, rfl⟩ := FileSystem.write_eq_ok.mp done
  exact stamped_put (FileSystem.free_of_outlet? leads) rfl

theorem stamped_retimed (retimed : FileSystem.Retimed before.now before.files files) :
    Stamped before (before.after files) := by
  refine ⟨rfl, Nat.le_succ _, fun location file there => ?_⟩
  change files.fileAt? location = some file at there
  rcases retimed.file location with same | changed
  · rw [same] at there
    exact .inl there
  · rw [changed] at there
    obtain ⟨old, _, rfl⟩ := Option.map_eq_some_iff.mp there
    exact .inr ⟨before.ticks, Nat.le_succ _, rfl⟩

end World

end ShaderBuild
