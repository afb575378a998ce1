import Mathlib
import ShaderBuild.Proofs.Dependency.Snapshot
import ShaderBuild.Proofs.FileSystem.Rename
/-!
What is saved is loaded again, exactly when no dialect has a colon.
-/
namespace ShaderBuild.Snapshot

open DependencyStore

variable {cache loaded : DependencyStore} {world saved : World} {path : Path}

/-- The stores that come about: by storing sets under the keys of commands, by finding dependencies
afresh, and by loading a snapshot. -/
inductive Kept : DependencyStore → Prop
  | empty : Kept DependencyStore.empty
  | insert {cache : DependencyStore} {line : Text} {number : Nat} {command : ShaderCommand}
      (kept : Kept cache) (parsed : ShaderCommand.parse line number = .ok command)
      (paths : List Path) :
      Kept (cache.insert (DependencyKey.ofCommand command) (PathSet.ofList paths))
  | rediscover {cache later : DependencyStore} {line : Text} {number : Nat}
      {command : ShaderCommand} {files : FileSystem} {search : SearchPath} {source : Path}
      {headers : List Path} {set : PathSet}
      (kept : Kept cache) (parsed : ShaderCommand.parse line number = .ok command)
      (found : ((cache.rediscover (DependencyKey.ofCommand command) files search source
        headers).run files).value = .ok (set, later)) :
      Kept later
  | load {loaded : DependencyStore} {files : FileSystem} {path : Path}
      (found : (load files path).value = .ok loaded) : Kept loaded

private theorem value_load_ok {files : FileSystem} {text : Text}
    (held : files.readText path = .ok text) (solid : (Text.trim text).isEmpty = false)
    (done : read text = .ok loaded) : (load files path).value = .ok loaded := by
  unfold load
  rw [held]
  dsimp only
  rw [solid, if_neg (by simp), done]
  rfl

theorem sound_load {files : FileSystem} (found : (load files path).value = .ok loaded) :
    loaded.Sound ∧ loaded.Plain := by
  have blank : DependencyStore.empty.Sound ∧ DependencyStore.empty.Plain :=
    ⟨sound_empty, by simp [Plain, DependencyStore.empty]⟩
  unfold load at found
  split at found
  · obtain rfl := Except.ok.inj found
    exact blank
  · simp [pure, Logged.pure] at found
  · rename_i text held
    split at found
    · obtain rfl := Except.ok.inj found
      exact blank
    · split at found
      · simp [pure, Logged.pure] at found
      · rename_i done
        obtain rfl := Except.ok.inj found
        exact sound_read done

/-- Every store that comes about is sound. -/
theorem Kept.sound (kept : Kept cache) : cache.Sound := by
  induction kept with
  | empty => exact sound_empty
  | insert kept parsed paths ih =>
    exact ih.insert (ShaderCommand.filled_of_parse parsed) (PathSet.distinct_ofList paths)
  | @rediscover cache later line number command files search source headers set kept parsed found
      ih =>
    rw [DependencyStore.rediscover, Expanding.value_bind] at found
    obtain ⟨own, discovered, found⟩ := bind_eq_ok.mp found
    obtain ⟨rfl, rfl⟩ := Prod.mk.inj (Except.ok.inj found)
    exact ih.insert (ShaderCommand.filled_of_parse parsed) (distinct_discover discovered)
  | load found => exact (sound_load found).1

theorem value_save (cache : DependencyStore) (world : World) (path : Path) :
    (save cache world path).value = replace world path (Json.writeFields (ofCache cache)) := by
  unfold save
  dsimp only
  split
  · rename_i failed
    rw [failed]
    rfl
  · rename_i done
    rw [done]
    rfl

private theorem isEmpty_trim {c : Char} {text : Text} (solid : Text.isBlank c = false) :
    (Text.trim (c :: text)).isEmpty = false := by
  have start : Text.trimStart (c :: text) = c :: text := List.dropWhile_cons_of_neg (by simp [solid])
  rw [Text.trim, start, Text.trimEnd, List.isEmpty_reverse, ← Bool.not_eq_true, List.isEmpty_iff,
    List.dropWhile_eq_nil_iff]
  intro blank
  simpa [solid] using blank c (by simp)

private theorem isEmpty_trim_writeFields (fields : Snapshot) :
    (Text.trim (Json.writeFields fields)).isEmpty = false := by
  have solid : Text.isBlank '\x7b' = false := by decide
  unfold Json.writeFields Json.writeBlock
  split
  · exact isEmpty_trim solid
  · exact isEmpty_trim solid

theorem change_eq_ok {after : World} {change : Instant → Except FileError FileSystem}
    (done : world.change change = (.ok (), after)) :
    change world.now = .ok after.files := by
  unfold World.change at done
  split at done
  · rename_i files same
    obtain rfl := (Prod.mk.inj done).2
    exact same
  · simp at done

theorem change_eq_error {after : World} {change : Instant → Except FileError FileSystem}
    {problem : FileError} (failed : world.change change = (.error problem, after)) :
    after = world := by
  unfold World.change at failed
  split at failed
  · cases failed
  · exact (Prod.mk.inj failed).2.symm

theorem writeBeside_eq_ok {after : World} {text : Text}
    (done : writeBeside world path text = (.ok (), after)) :
    world.files.write (temporary path) world.now (.text text) = .ok after.files := by
  unfold writeBeside at done
  split at done
  · rename_i written same
    obtain rfl := (Prod.mk.inj done).2
    exact change_eq_ok same
  · simp at done

theorem writeBeside_eq_error {after : World} {text : Text} {problem : BuildFailure}
    (failed : writeBeside world path text = (.error problem, after)) : after = world := by
  unfold writeBeside at failed
  split at failed
  · cases failed
  · rename_i same
    obtain rfl := (Prod.mk.inj failed).2
    exact change_eq_error same

theorem publish_eq_ok {after : World} (done : publish world path = (.ok (), after)) :
    world.files.rename (temporary path) path = .ok after.files := by
  unfold publish at done
  split at done
  · rename_i moved same
    obtain rfl := (Prod.mk.inj done).2
    exact change_eq_ok same
  · simp at done

theorem publish_eq_error {after : World} {problem : BuildFailure}
    (failed : publish world path = (.error problem, after)) : after = world := by
  unfold publish at failed
  split at failed
  · cases failed
  · rename_i same
    obtain rfl := (Prod.mk.inj failed).2
    exact change_eq_error same

theorem readText_of_replace {text : Text}
    (direct : (prepare world path).2.files.Direct (temporary path) path)
    (done : replace world path text = (.ok (), saved)) : saved.files.readText path = .ok text := by
  unfold replace at done
  split at done
  · simp at done
  · rename_i prepared same
    rw [same] at direct
    split at done
    · simp at done
    · rename_i written beside
      exact FileSystem.readText_of_rename direct (writeBeside_eq_ok beside) (publish_eq_ok done)

theorem plain_of_load (kept : Kept cache) {files : FileSystem}
    (found : (load files path).value = .ok loaded)
    (same : ∀ key, loaded.find? key = cache.find? key) : cache.Plain := by
  intro entry member
  have stored : cache.find? entry.1 = some entry.2 :=
    (find?_eq_some kept.sound.distinct).mpr ⟨entry.1, member, rfl⟩
  have sound := sound_load found
  rw [← same, find?_eq_some sound.1.distinct] at stored
  obtain ⟨known, inside, equal⟩ := stored
  have dialect : known.dialect = entry.1.dialect := congrArg (·.2.1) equal
  exact dialect ▸ sound.2 (known, entry.2) inside

theorem load_of_readText {files : FileSystem}
    (held : files.readText path = .ok (Json.writeFields (ofCache cache))) (sound : cache.Sound)
    (plain : cache.Plain) :
    ∃ loaded, (load files path).value = .ok loaded ∧
      ∀ key, loaded.find? key = cache.find? key := by
  obtain ⟨loaded, done, entries⟩ := read_writeFields sound plain
  refine ⟨loaded, value_load_ok held (isEmpty_trim_writeFields _) done, fun key => ?_⟩
  exact (find?_perm sound.distinct entries.symm key).symm

theorem load_of_save (sound : cache.Sound) (plain : cache.Plain)
    (direct : (prepare world path).2.files.Direct (temporary path) path)
    (done : (save cache world path).value = (.ok (), saved)) :
    ∃ loaded, (load saved.files path).value = .ok loaded ∧
      ∀ key, loaded.find? key = cache.find? key := by
  rw [value_save] at done
  exact load_of_readText (readText_of_replace direct done) sound plain

/-- A store that was saved is loaded again, with the same sets under the same keys, exactly when no
dialect of it has a colon. -/
theorem load_of_save_iff (kept : Kept cache)
    (direct : (prepare world path).2.files.Direct (temporary path) path)
    (done : (save cache world path).value = (.ok (), saved)) :
    (∃ loaded, (load saved.files path).value = .ok loaded ∧
        ∀ key, loaded.find? key = cache.find? key) ↔
      ∀ entry ∈ cache.entries, ':' ∉ entry.1.dialect := by
  constructor
  · rintro ⟨loaded, found, same⟩
    exact plain_of_load kept found same
  · exact fun plain => load_of_save kept.sound plain direct done

/-- A file system with nothing in it. -/
def bareWorld : World :=
  ⟨⟨[], [], Path.of "/"⟩, fun _ => 0, 0⟩

def barePath : Path :=
  Path.of "/deps.json"

/-- A store with one set, that of a command for a dialect. -/
def singleStore (dialect : String) : DependencyStore :=
  DependencyStore.empty.insert ⟨Path.of "a.slv", dialect.toList, .mono⟩
    (PathSet.ofList [Path.of "/a.slv"])

private theorem direct_bare :
    (prepare bareWorld barePath).2.files.Direct (temporary barePath) barePath := by
  have beside : (prepare bareWorld barePath).2.files.locate .node (temporary barePath) =
      .ok (.vacant ["deps.json.tmp".toList]) := by cbv
  have own : (prepare bareWorld barePath).2.files.locate .node barePath =
      .ok (.vacant ["deps.json".toList]) := by cbv
  constructor
  · intro location target found
    simp [beside] at found
  · intro location target found
    simp [own] at found

/-- The store of one command is saved where nothing was, and loaded again. -/
theorem load_of_save_single :
    ∃ saved, Kept (singleStore "410") ∧
      (prepare bareWorld barePath).2.files.Direct (temporary barePath) barePath ∧
      (save (singleStore "410") bareWorld barePath).value = (.ok (), saved) ∧
      ∃ loaded, (load saved.files barePath).value = .ok loaded ∧
        ∀ key, loaded.find? key = (singleStore "410").find? key := by
  have parsed : ShaderCommand.parse "410;mono;a.slv;out/a".toList 1 =
      .ok ⟨"410".toList, .mono, Path.of "a.slv", Path.of "out/a", []⟩ := by cbv
  have kept : Kept (singleStore "410") := Kept.empty.insert parsed [Path.of "/a.slv"]
  have done : (save (singleStore "410") bareWorld barePath).value =
      (.ok (), (save (singleStore "410") bareWorld barePath).value.2) :=
    Prod.ext (by cbv) rfl
  refine ⟨_, kept, direct_bare, done, (load_of_save_iff kept direct_bare done).mpr ?_⟩
  intro entry member
  obtain rfl := List.mem_singleton.mp member
  decide

/-- The dialect of a command may have a colon; its store is saved, and no store that is loaded from
there is the same. -/
theorem load_ne_save_colon :
    ∃ line command saved, ShaderCommand.parse line 1 = .ok command ∧
      (save (DependencyStore.empty.insert (DependencyKey.ofCommand command)
        (PathSet.ofList [Path.of "/a.slv"])) bareWorld barePath).value = (.ok (), saved) ∧
      ¬∃ loaded, (load saved.files barePath).value = .ok loaded ∧
        ∀ key, loaded.find? key = (DependencyStore.empty.insert (DependencyKey.ofCommand command)
          (PathSet.ofList [Path.of "/a.slv"])).find? key := by
  have parsed : ShaderCommand.parse "4:10;mono;a.slv;out/a".toList 1 =
      .ok ⟨"4:10".toList, .mono, Path.of "a.slv", Path.of "out/a", []⟩ := by cbv
  refine ⟨_, _, (save (singleStore "4:10") bareWorld barePath).value.2, parsed,
    Prod.ext (by cbv) rfl, ?_⟩
  rintro ⟨loaded, found, same⟩
  have plain := plain_of_load (Kept.empty.insert parsed _) found same
  exact plain _ List.mem_cons_self (by decide)

end ShaderBuild.Snapshot
