import ShaderBuild.Proofs.FileSystem.Directories
/-!
Files that go on in time: none is lost, none is changed without a new time, and new ones come about
at given paths alone. Writing, refreshing and the making of directories are all of this kind.
-/
namespace ShaderBuild.FileSystem

variable {bound now : Instant} {written paths : List Path} {files first second : FileSystem}
  {path : Path}

/-- A path that leads to a file goes on to lead to it; a file stays as it is, or comes to be at least
as new as the bound; and where a file comes about, or is changed, one of the written paths leads. -/
structure Advances (bound : Instant) (written : List Path) (first second : FileSystem) : Prop where
  leads : ∀ path location, first.outlet? path = some location →
    (first.fileAt? location).isSome → second.outlet? path = some location
  file : ∀ location file, first.fileAt? location = some file →
    ∃ later, second.fileAt? location = some later ∧ (later = file ∨ bound ≤ later.modified)
  new : ∀ location file, second.fileAt? location = some file →
    first.fileAt? location = some file ∨ ∃ path ∈ written, second.outlet? path = some location

/-- The paths lead to files that are at least as new as the bound. -/
def Recent (bound : Instant) (files : FileSystem) (paths : List Path) : Prop :=
  ∀ path ∈ paths, ∃ file, files.file? path = some file ∧ bound ≤ file.modified

namespace Advances

theorem refl (files : FileSystem) : Advances bound written files files :=
  ⟨fun _ _ leads _ => leads, fun _ file there => ⟨file, there, .inl rfl⟩, fun _ _ there => .inl there⟩

theorem trans {third : FileSystem} (once : Advances bound written first second)
    (again : Advances bound written second third) : Advances bound written first third := by
  refine ⟨fun path location leads present => ?_, fun location file there => ?_,
    fun location file there => ?_⟩
  · obtain ⟨file, there⟩ := Option.isSome_iff_exists.mp present
    obtain ⟨later, still, _⟩ := once.file location file there
    exact again.leads path location (once.leads path location leads present)
      (Option.isSome_iff_exists.mpr ⟨later, still⟩)
  · obtain ⟨later, still, same | recent⟩ := once.file location file there
    · exact same ▸ again.file location later still
    · obtain ⟨last, ends, same | recentToo⟩ := again.file location later still
      · exact ⟨last, ends, .inr (same ▸ recent)⟩
      · exact ⟨last, ends, .inr recentToo⟩
  · rcases again.new location file there with still | new
    · rcases once.new location file still with old | ⟨path, member, leads⟩
      · exact .inl old
      · exact .inr ⟨path, member, again.leads path location leads
          (Option.isSome_iff_exists.mpr ⟨file, still⟩)⟩
    · exact .inr new

/-- A path leads to the file that it led to, or to one as new as the bound. -/
theorem file? (advances : Advances bound written first second) {file : File}
    (found : first.file? path = some file) :
    ∃ later, second.file? path = some later ∧ (later = file ∨ bound ≤ later.modified) := by
  obtain ⟨location, leads, there⟩ := file?_eq_some.mp found
  obtain ⟨later, still, same⟩ := advances.file location file there
  have leadsToo := advances.leads path location leads (Option.isSome_iff_exists.mpr ⟨file, there⟩)
  exact ⟨later, file?_eq_some.mpr ⟨location, leadsToo, still⟩, same⟩

theorem isFile (advances : Advances bound written first second) (there : first.isFile path = true) :
    second.isFile path = true := by
  rw [isFile_eq, Option.isSome_iff_exists] at there ⊢
  obtain ⟨file, found⟩ := there
  obtain ⟨later, still, _⟩ := advances.file? found
  exact ⟨later, still⟩

theorem recent (advances : Advances bound written first second)
    (recent : Recent bound first paths) : Recent bound second paths := by
  intro path member
  obtain ⟨file, found, new⟩ := recent path member
  obtain ⟨later, still, rfl | newToo⟩ := advances.file? found
  · exact ⟨later, still, new⟩
  · exact ⟨later, still, newToo⟩

/-- A written path may be written, with a time from the bound on. -/
theorem writes (writes : Writes path first second) (member : path ∈ written)
    (new : ∀ file, second.file? path = some file → bound ≤ file.modified) :
    Advances bound written first second := by
  rcases writes with rfl | ⟨location, file, leads, rfl⟩
  · exact .refl _
  have free := free_of_outlet? leads
  have framed := Framed.put free file
  have recent : bound ≤ file.modified := new file (by rw [file?_put free, if_pos leads])
  refine ⟨fun other place leadsToo _ => by rwa [← framed.outlet?], fun place old there => ?_,
    fun place later there => ?_⟩
  · rw [fileAt?_put free]
    by_cases own : place = location
    · exact ⟨file, if_pos own, .inr recent⟩
    · exact ⟨old, by rw [if_neg own, there], .inl rfl⟩
  · rw [fileAt?_put free] at there
    by_cases own : place = location
    · exact .inr ⟨path, member, by rw [← framed.outlet?, leads, own]⟩
    · exact .inl (by rwa [if_neg own] at there)

theorem makeDirectories (files : FileSystem) (path : Path) :
    Advances bound written files (files.makeDirectories path).2 := by
  refine makeChain_induction (motive := Advances bound written files)
    (fun _ _ before made done advances => advances.trans ?_) (.refl files)
  have same := fileAt?_makeDirectory done
  refine ⟨fun other location leads present => (grown_makeDirectory done).outlet? leads present,
    fun location file there => ⟨file, by rw [same, there], .inl rfl⟩, fun location file there => ?_⟩
  exact .inl (by rwa [same] at there)

/-- Written paths may be refreshed at a time from the bound on. -/
theorem refresh (listed : paths ⊆ written) (present : bound ≤ now) :
    Advances bound written files (Freshness.refresh now files paths).2 := by
  have retimed := Freshness.retimed_refresh now files paths
  refine ⟨fun path location leads _ => by rwa [← retimed.framed.outlet?], fun location file there => ?_,
    fun location file there => ?_⟩
  · rcases retimed.file location with same | changed
    · exact ⟨file, by rw [same, there], .inl rfl⟩
    · exact ⟨file.stamped now, by rw [changed, there]; rfl, .inr present⟩
  · by_cases own : ∃ path ∈ paths, files.outlet? path = some location
    · obtain ⟨path, member, leads⟩ := own
      exact .inr ⟨path, listed member, by rwa [← retimed.framed.outlet?]⟩
    · rw [Freshness.fileAt?_refresh fun path member leads => own ⟨path, member, leads⟩] at there
      exact .inl there

end Advances

theorem recent_write {contents : Contents}
    (done : first.write path now contents = .ok second) : Recent now second [path] := by
  obtain ⟨location, leads, rfl⟩ := write_eq_ok.mp done
  intro other member
  obtain rfl := List.mem_singleton.mp member
  exact ⟨_, by rw [file?_put (free_of_outlet? leads), if_pos leads], Int.le_refl _⟩

theorem recent_refresh (there : ∀ path ∈ paths, files.isFile path = true) :
    Recent now (Freshness.refresh now files paths).2 paths := by
  intro path member
  have present := there path member
  rw [← (Freshness.retimed_refresh now files paths).isFile, isFile_eq,
    Option.isSome_iff_exists] at present
  obtain ⟨file, found⟩ := present
  exact ⟨file, found, Int.le_of_eq (Freshness.modified_refresh member found).symm⟩

theorem Recent.mono {earlier : Instant} (recent : Recent bound files paths)
    (le : earlier ≤ bound) : Recent earlier files paths := by
  intro path member
  obtain ⟨file, found, new⟩ := recent path member
  exact ⟨file, found, Int.le_trans le new⟩

end ShaderBuild.FileSystem
