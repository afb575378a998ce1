import ShaderBuild.Config.Basic
import ShaderBuild.Dependency.Snapshot
import ShaderBuild.Proofs.Expansion.Following
import ShaderBuild.Proofs.Path.Components
/-!
Where the settings of a run put the saved dependencies, and the file that they are written to first.
-/
namespace ShaderBuild

open ShaderBuild.Path

theorem Snapshot.lies_temporary_iff {path directory : Path} {base name : Text}
    (ends : path.Ends base name) (proper : name ≠ ['.', '.'])
    (same : Path.components ⟨base⟩ = directory.components) :
    (∃ other, (temporary path).Lies directory other) ↔
      ∀ extension : Text, '.' ∉ extension → name ≠ '.' :: '.' :: extension := by
  constructor
  · rintro ⟨other, lies⟩ extension apart rfl
    have text := ends.withExtension_up (by simpa using proper) apart "json.tmp"
    have up : (temporary path).Ends base ['.', '.'] := ⟨text, ends.base, by decide, by decide⟩
    have named := lies.fileName
    rw [up.fileName?_up] at named
    cases named
  · intro kept
    have text := ends.withExtension_kept kept "json.tmp"
    have beside : (temporary path).Ends base ((cutName name).1 ++ '.' :: "json.tmp".toList) := by
      refine ⟨by rw [temporary, text, List.append_assoc], ends.base, ?_, ?_⟩
      · simp [not_mem_cutName ends.whole]
      · simp [isFiller, List.append_eq_singleton_iff]
    refine ⟨_, beside.lies (fun equal => ?_) same⟩
    have size := congrArg List.length equal
    simp at size

namespace BuildConfig

variable {config : BuildConfig} {settings : RunSettings}

/-- Settings are made from a build directory and a plain name. -/
theorem cachePath_of_toSettings (accepted : config.toSettings = .ok settings) :
    ∃ directory, config.buildDirectory = some directory ∧
      isPlainName config.cacheFileName = true ∧
      settings.cachePath = directory.join ⟨config.cacheFileName⟩ := by
  unfold toSettings at accepted
  obtain ⟨_, _, accepted⟩ := bind_eq_ok.mp accepted
  obtain ⟨_, _, accepted⟩ := bind_eq_ok.mp accepted
  obtain ⟨directory, placed, accepted⟩ := bind_eq_ok.mp accepted
  obtain ⟨_, _, accepted⟩ := bind_eq_ok.mp accepted
  obtain ⟨_, checked, accepted⟩ := bind_eq_ok.mp accepted
  obtain rfl := Except.ok.inj accepted
  refine ⟨directory, ?_, ?_, rfl⟩
  · cases own : config.buildDirectory with
    | none => simp [required, own] at placed
    | some path =>
      rw [own] at placed
      exact congrArg some (Except.ok.inj placed)
  · unfold check at checked
    split at checked
    · cases checked
    · split at checked
      · cases checked
      · split at checked
        · cases checked
        · simp_all

/-- Of accepted settings, the snapshot is the file of the given name in the build directory unless that
name is `.` or `..`. If it is, the file that is written before it lies there too, unless the name is two
dots and a text without a dot. -/
theorem lies_of_toSettings (accepted : config.toSettings = .ok settings) :
    ∃ directory, config.buildDirectory = some directory ∧
      (settings.cachePath.Lies directory config.cacheFileName ↔
        config.cacheFileName ≠ ['.'] ∧ config.cacheFileName ≠ ['.', '.']) ∧
      (settings.cachePath.Lies directory config.cacheFileName →
        ((∃ name, (Snapshot.temporary settings.cachePath).Lies directory name) ↔
          ∀ extension : Text, '.' ∉ extension →
            config.cacheFileName ≠ '.' :: '.' :: extension)) := by
  obtain ⟨directory, placed, plain, path⟩ := cachePath_of_toSettings accepted
  have some : config.cacheFileName ≠ [] := by
    intro none
    simp [isPlainName, none] at plain
  have whole : '/' ∉ config.cacheFileName := by
    intro slash
    simp only [isPlainName, Bool.and_eq_true, Bool.not_eq_true', List.any_eq_false] at plain
    simpa using plain.2 _ slash
  obtain ⟨base, is, same, joins⟩ := directory.exists_base_join
  rw [joins _ whole] at path
  have ends (other : config.cacheFileName ≠ ['.']) : settings.cachePath.Ends base config.cacheFileName :=
    ⟨by rw [path], is, whole, by simp [isFiller, some, other]⟩
  have lies : settings.cachePath.Lies directory config.cacheFileName ↔
      config.cacheFileName ≠ ['.'] ∧ config.cacheFileName ≠ ['.', '.'] := by
    constructor
    · intro lies
      have named := component?_of_fileName? lies.fileName
      constructor <;> intro dots <;> rw [dots] at named <;> simp [component?, isFiller] at named
    · rintro ⟨other, proper⟩
      exact (ends other).lies proper same
  refine ⟨directory, placed, lies, fun own => ?_⟩
  obtain ⟨other, proper⟩ := lies.mp own
  exact Snapshot.lies_temporary_iff (ends other) proper same

/-- A configuration that says where everything is and what the snapshot is called. -/
def called (name : String) : BuildConfig :=
  { empty with
    commands := some (Path.of "cmds.txt"), toolsDirectory := some (Path.of "tools")
    buildDirectory := some (Path.of "build"), sourceDirectory := some (Path.of "src")
    cacheFileName := name.toList }

/-- Both files lie in the build directory when the name is the usual one. -/
theorem lies_of_toSettings_usual : ∃ settings,
    (called RunSettings.cacheFileName).toSettings = .ok settings ∧
      settings.cachePath.Lies (Path.of "build") RunSettings.cacheFileName.toList ∧
        ∃ name, (Snapshot.temporary settings.cachePath).Lies (Path.of "build") name := by
  have accepted : (called RunSettings.cacheFileName).toSettings = .ok _ := rfl
  obtain ⟨directory, placed, lies, beside⟩ := lies_of_toSettings accepted
  obtain rfl : Path.of "build" = directory := Option.some.inj placed
  have own := lies.mpr ⟨by decide, by decide⟩
  refine ⟨_, accepted, own, (beside own).mpr fun extension apart same => ?_⟩
  cases same

/-- The names `.` and `..` are accepted, and the snapshot is not a file of that name in the build
directory; nor does the file that is written first lie there when the name is `..x`. -/
theorem not_lies_dots :
    (∀ name ∈ [".", ".."], ∃ settings, (called name).toSettings = .ok settings ∧
      ¬settings.cachePath.Lies (Path.of "build") name.toList) ∧
    ∃ settings, (called "..x").toSettings = .ok settings ∧
      ¬∃ name, (Snapshot.temporary settings.cachePath).Lies (Path.of "build") name := by
  refine ⟨List.forall_mem_cons.mpr ⟨⟨_, rfl, ?_⟩, List.forall_mem_singleton.mpr ⟨_, rfl, ?_⟩⟩,
    _, rfl, ?_⟩
  · intro lies
    exact absurd lies.fileName (by decide)
  · intro lies
    exact absurd lies.fileName (by decide)
  · rintro ⟨name, lies⟩
    have named : (Snapshot.temporary (Path.of "build/..x")).fileName? = some name := lies.fileName
    have none : (Snapshot.temporary (Path.of "build/..x")).fileName? = none := by decide
    rw [none] at named
    cases named

end BuildConfig

end ShaderBuild
