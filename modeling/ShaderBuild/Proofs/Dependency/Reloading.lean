import ShaderBuild.Proofs.Dependency.Interruption
/-!
Snapshots that are loaded, saved and loaded again. The texts of keys have one grammar, and what was read
by it is written as it was read.
-/
namespace ShaderBuild

namespace DependencyKey

variable {text : Text}

/-- The text is a source, a dialect and a variant with colons between them. -/
def Spelled (text : Text) : Prop :=
  ∃ source dialect variant : Text, text = source ++ ':' :: (dialect ++ ':' :: variant) ∧
    source ≠ [] ∧ dialect ≠ [] ∧ ':' ∉ dialect ∧
    (variant = "mono".toList ∨ variant = "stereo".toList)

theorem spelled_iff : (∃ key, parse text = .ok key) ↔ Spelled text := by
  constructor
  · rintro ⟨⟨source, dialect, variant⟩, read⟩
    obtain ⟨rfl, filled, plain⟩ := parse_eq_ok.mp read
    refine ⟨source.text, dialect, variant.name.toList, by simp [DependencyKey.text], filled.source,
      filled.dialect, plain, ?_⟩
    cases variant
    · exact .inl rfl
    · exact .inr rfl
  · rintro ⟨source, dialect, name, rfl, sourceFilled, dialectFilled, plain, named⟩
    obtain ⟨variant, rfl⟩ : ∃ variant : Variant, variant.name.toList = name := by
      rcases named with rfl | rfl
      · exact ⟨.mono, rfl⟩
      · exact ⟨.stereo, rfl⟩
    exact ⟨⟨⟨source⟩, dialect, variant⟩,
      parse_eq_ok.mpr ⟨by simp [DependencyKey.text], ⟨sourceFilled, dialectFilled⟩, plain⟩⟩

end DependencyKey

namespace Snapshot

variable {files : FileSystem} {path first : Path} {loaded : DependencyStore} {world saved : World}

theorem load_congr {second : FileSystem} {file : File} (there : files.file? path = some file)
    (thereToo : second.file? path = some file) : load second path = load files path := by
  obtain ⟨location, leads, present⟩ := FileSystem.file?_eq_some.mp there
  obtain ⟨locationToo, leadsToo, presentToo⟩ := FileSystem.file?_eq_some.mp thereToo
  have one := FileSystem.locateFile_eq_ok.mpr ⟨leads, present⟩
  have two := FileSystem.locateFile_eq_ok.mpr ⟨leadsToo, presentToo⟩
  have same : second.readText path = files.readText path := by
    simp only [FileSystem.readText, one, two]
  rw [load, load, same]

/-- The texts of keys have one grammar, and a key is written as it was read. So what was loaded is
loaded again where it was saved; and where it could not be saved, though a file was there, the same is
loaded as before. -/
theorem load_of_load_save (found : (load files first).value = .ok loaded) :
    (∀ text, (∃ key, DependencyKey.parse text = .ok key) ↔ DependencyKey.Spelled text) ∧
    (∀ text key, DependencyKey.parse text = .ok key → key.text = text) ∧
    (∀ world path saved, (prepare world path).2.files.Direct (temporary path) path →
      (save loaded world path).value = (.ok (), saved) →
      ∃ again, (load saved.files path).value = .ok again ∧
        ∀ key, again.find? key = loaded.find? key) ∧
    ∀ world path problem saved, Bare world.files path → world.files.isFile path = true →
      (save loaded world path).value = (.error problem, saved) →
      load saved.files path = load world.files path := by
  refine ⟨fun text => DependencyKey.spelled_iff, fun text key => DependencyKey.text_of_parse, ?_, ?_⟩
  · intro world path saved direct done
    obtain ⟨sound, plain⟩ := sound_load found
    exact load_of_save sound plain direct done
  · intro world path problem saved bare present failed
    rw [FileSystem.isFile_eq, Option.isSome_iff_exists] at present
    obtain ⟨file, there⟩ := present
    have reaches := reaches_replace world path (Json.writeFields (ofCache loaded))
    rw [← value_save, failed] at reaches
    cases intact_of_reaches bare reaches with
    | failed retains => exact load_congr there (retains file there)

/-- The text of a snapshot of one set. -/
def singleText : Text :=
  "\x7b\"a.slv:410:mono\":[\"/a.slv\"]\x7d".toList

/-- A file system with that snapshot, beside which the second node stands. -/
def besideFiles (node : Node) : FileSystem where
  entries := [(["deps.json".toList], .file ⟨.text singleText, 5, false, false⟩),
    (["deps.json.tmp".toList], node)]
  workingLocation := []
  workingDirectory := Path.of "/"

def besideWorld (node : Node) : World :=
  ⟨besideFiles node, fun tick => tick + 10, 0⟩

private theorem load_beside (node : Node) :
    (load (besideFiles node) barePath).value = .ok (singleStore "410") := by
  cbv

/-- A temporary file that was left is in no way: the snapshot is loaded, saved and loaded again. -/
theorem load_of_load_save_left :
    let left : Node := .file ⟨.text [], 4, false, false⟩
    ∃ saved again, (load (besideFiles left) barePath).value = .ok (singleStore "410") ∧
      (save (singleStore "410") (besideWorld left) barePath).value = (.ok (), saved) ∧
      (load saved.files barePath).value = .ok again ∧
      ∀ key, again.find? key = (singleStore "410").find? key := by
  intro left
  have beside : (prepare (besideWorld left) barePath).2.files.locate .node (temporary barePath) =
      .ok (.occupied ["deps.json.tmp".toList] left) := by cbv
  have own : (prepare (besideWorld left) barePath).2.files.locate .node barePath =
      .ok (.occupied ["deps.json".toList] (.file ⟨.text singleText, 5, false, false⟩)) := by cbv
  have direct : (prepare (besideWorld left) barePath).2.files.Direct (temporary barePath)
      barePath := by
    constructor
    · intro location target link
      simp [beside, left] at link
    · intro location target link
      simp [own] at link
  have done : (save (singleStore "410") (besideWorld left) barePath).value.1 = .ok () := by cbv
  obtain ⟨again, found, same⟩ := (load_of_load_save (load_beside left)).2.2.1 _ _ _ direct
    (Prod.ext done rfl)
  exact ⟨_, again, load_beside left, Prod.ext done rfl, found, same⟩

/-- A path on which a directory is missing, and after it a file is in the way. -/
def blockedPath : Path :=
  Path.of "missing/../file/deps.json"

def blockedWorld : World where
  files :=
    { entries := [(["file".toList], .file ⟨.text [], 5, false, false⟩)]
      workingLocation := []
      workingDirectory := Path.of "/" }
  clock := fun tick => tick + 10
  ticks := 0

/-- A link in place of the temporary file becomes a link to itself in place of the snapshot, which is
loaded no more. And where saving makes one directory on a way and fails at the next, the snapshot that
was missing is out of reach. -/
theorem load_ne_load_link :
    (let linked : Node := .link (Path.of "deps.json")
    (load (besideFiles linked) barePath).value = .ok (singleStore "410") ∧
      ∃ saved, (save (singleStore "410") (besideWorld linked) barePath).value = (.ok (), saved) ∧
        ∀ again, (load saved.files barePath).value ≠ .ok again) ∧
    (load blockedWorld.files blockedPath).value = .ok DependencyStore.empty ∧
      ∃ problem saved, (save DependencyStore.empty blockedWorld blockedPath).value =
          (.error problem, saved) ∧
        ∀ again, (load saved.files blockedPath).value ≠ .ok again := by
  have done : (save (singleStore "410") (besideWorld (.link (Path.of "deps.json")))
      barePath).value.1 = .ok () := by cbv
  have looped : ∃ problem, (load (save (singleStore "410")
      (besideWorld (.link (Path.of "deps.json"))) barePath).value.2.files barePath).value =
        .error problem := ⟨_, by cbv⟩
  have failed : ∃ problem, (save DependencyStore.empty blockedWorld blockedPath).value.1 =
      .error problem := ⟨_, by cbv⟩
  have lost : ∃ problem, (load (save DependencyStore.empty blockedWorld
      blockedPath).value.2.files blockedPath).value = .error problem := ⟨_, by cbv⟩
  obtain ⟨_, looped⟩ := looped
  obtain ⟨problem, failed⟩ := failed
  obtain ⟨_, lost⟩ := lost
  exact ⟨⟨load_beside _, _, Prod.ext done rfl, by simp [looped]⟩, by cbv, problem, _,
    Prod.ext failed rfl, by simp [lost]⟩

end Snapshot

end ShaderBuild
