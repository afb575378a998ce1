import ShaderBuild.Proofs.Dependency.Consulted
/-!
What is looked at while dependencies are searched and a source is expanded, whether that succeeds or
fails. Among files that agree on it the outcome is the same, down to the error.
-/
namespace ShaderBuild

namespace FileSystem

variable {first second : FileSystem} {path : Path}

theorem readText_congr (same : second.locateFile path = first.locateFile path) :
    second.readText path = first.readText path := by
  rw [readText, readText, same]

theorem mapError_readText_congr (same : second.file? path = first.file? path) :
    (second.readText path).mapError (fun _ => ()) = (first.readText path).mapError fun _ => () := by
  rw [← toOption_locateFile, ← toOption_locateFile] at same
  unfold readText
  revert same
  cases second.locateFile path with
  | error problem =>
    cases first.locateFile path with
    | error other => exact fun _ => rfl
    | ok found =>
      intro same
      cases same
  | ok found =>
    cases first.locateFile path with
    | error problem =>
      intro same
      cases same
    | ok other =>
      intro same
      have equal : found.2 = other.2 := Option.some.inj same
      dsimp only
      rw [equal]

theorem isFile_congr (same : second.locateFile path = first.locateFile path) :
    second.isFile path = first.isFile path := by
  rw [isFile, isFile, same]

theorem modified?_congr (same : second.locateFile path = first.locateFile path) :
    second.modified? path = first.modified? path := by
  rw [modified?, modified?, same]

end FileSystem

theorem Expanding.value_congr {α : Type} {first second : FileSystem} (expansion : Expanding α)
    (same : ∀ path ∈ expansion.reads first, second.readText path = first.readText path) :
    (expansion.run second).value = (expansion.run first).value := by
  induction expansion with
  | ended log result => rfl
  | reading log path next ih =>
    have read := same path List.mem_cons_self
    change ((next (second.readText path)).run second).value =
      ((next (first.readText path)).run first).value
    rw [read]
    exact ih _ fun other member => same other (List.mem_cons_of_mem _ member)

theorem Expanding.mem_of_mem_reads {files : FileSystem} {paths : List Path} {path : Path}
    (member : path ∈ (paths.mapM Expanding.readText).reads files) : path ∈ paths := by
  induction paths with
  | nil => exact absurd member List.not_mem_nil
  | cons head rest ih =>
    rw [List.mapM_cons, reads_bind] at member
    rcases List.mem_append.mp member with own | later
    · exact List.mem_cons.mpr (.inl (List.mem_singleton.mp own))
    · cases read : ((readText head).run files).value with
      | error problem =>
        rw [read] at later
        exact absurd later List.not_mem_nil
      | ok text =>
        rw [read] at later
        dsimp only at later
        rw [reads_bind, List.mem_append] at later
        rcases later with inside | done
        · exact List.mem_cons_of_mem _ (ih inside)
        · split at done <;> exact absurd done List.not_mem_nil

namespace Include

variable {first second : FileSystem} {search : SearchPath} {errands : List Errand} {set : PathSet}

/-- What is looked at while errands are done: the paths at which a name is looked up, and the files
that are read. -/
inductive Looks (files : FileSystem) (search : SearchPath) :
    List Errand → PathSet → Path → Prop where
  | note {offset : Nat} {rest : List Errand} {set : PathSet} {looked : Path}
      (later : Looks files search rest set looked) :
      Looks files search (.note offset :: rest) set looked
  | tried {path looked : Path} {name : Text} {rest : List Errand} {set : PathSet}
      (tries : looked ∈ search.tried files name) :
      Looks files search (.fetch path name :: rest) set looked
  | present {path found looked : Path} {name : Text} {rest : List Errand} {set : PathSet}
      (resolved : search.resolve? files name = some found) (present : set.contains found = true)
      (later : Looks files search rest set looked) :
      Looks files search (.fetch path name :: rest) set looked
  | read {path found : Path} {name : Text} {rest : List Errand} {set : PathSet}
      (resolved : search.resolve? files name = some found) (fresh : set.contains found = false) :
      Looks files search (.fetch path name :: rest) set found
  | inside {path found looked : Path} {name text : Text} {rest : List Errand} {set : PathSet}
      (resolved : search.resolve? files name = some found) (fresh : set.contains found = false)
      (read : files.readText found = .ok text)
      (later : Looks files search (Errand.ofText found text ++ rest) (set.insert found) looked) :
      Looks files search (.fetch path name :: rest) set looked

/-- Errands come to the same, as far as errors are told apart, where the same files are there and the
same texts are read at all that is looked at. -/
theorem mapError_outcome_of_looks {ε : Type} (blur : ExpansionError → ε)
    (home : second.workingDirectory = first.workingDirectory)
    (places : ∀ path, Looks first search errands set path →
      second.isFile path = first.isFile path)
    (texts : ∀ path, Looks first search errands set path →
      (second.readText path).mapError (blur ∘ .unreadable path) =
        (first.readText path).mapError (blur ∘ .unreadable path)) :
    (outcome second search errands set).mapError blur =
      (outcome first search errands set).mapError blur := by
  have resolves {path : Path} {name : Text} {rest : List Errand} {set : PathSet}
      (places : ∀ looked, Looks first search (.fetch path name :: rest) set looked →
        second.isFile looked = first.isFile looked) :
      search.resolve? second name = search.resolve? first name :=
    (SearchPath.resolve?_congr home fun looked tries => places looked (.tried tries)).1
  induction errands, set using follow.induct first search with
  | case1 set => rw [outcome_nil, outcome_nil]
  | case2 offset rest set ih =>
    rw [outcome_note, outcome_note]
    exact ih (fun path looks => places path (.note looks)) fun path looks => texts path (.note looks)
  | case3 path name rest set missing =>
    rw [outcome_unresolved _ missing, outcome_unresolved _ ((resolves places).trans missing)]
  | case4 path name rest set found resolved present ih =>
    rw [outcome_present _ resolved present,
      outcome_present _ ((resolves places).trans resolved) present]
    exact ih (fun path looks => places path (.present resolved present looks))
      fun path looks => texts path (.present resolved present looks)
  | case5 path name rest set found resolved absent ih =>
    have fresh : set.contains found = false := by simpa using absent
    rw [outcome_read _ resolved fresh, outcome_read _ ((resolves places).trans resolved) fresh]
    -- Reading may fail in different ways, which are not told apart.
    have same := texts found (.read resolved fresh)
    cases read : first.readText found with
    | error problem =>
      rw [read] at same
      cases readToo : second.readText found with
      | error other =>
        rw [readToo] at same
        exact congrArg Except.error (Except.error.inj same)
      | ok text =>
        rw [readToo] at same
        cases same
    | ok text =>
      rw [read] at same
      cases readToo : second.readText found with
      | error other =>
        rw [readToo] at same
        cases same
      | ok other =>
        rw [readToo] at same
        obtain rfl := Except.ok.inj same
        exact ih other (fun path looks => places path (.inside resolved fresh read looks))
          fun path looks => texts path (.inside resolved fresh read looks)

private theorem mapError_id {ε α : Type} (result : Except ε α) : result.mapError id = result := by
  cases result <;> rfl

theorem outcome_of_looks (home : second.workingDirectory = first.workingDirectory)
    (same : ∀ path, Looks first search errands set path →
      second.locateFile path = first.locateFile path) :
    outcome second search errands set = outcome first search errands set := by
  have equal := mapError_outcome_of_looks id home
    (fun path looks => FileSystem.isFile_congr (same path looks))
    fun path looks => by rw [FileSystem.readText_congr (same path looks)]
  rwa [mapError_id, mapError_id] at equal

theorem toOption_outcome_of_looks (home : second.workingDirectory = first.workingDirectory)
    (same : ∀ path, Looks first search errands set path → second.file? path = first.file? path) :
    (outcome second search errands set).toOption =
      (outcome first search errands set).toOption := by
  have blurred {ε α : Type} (result : Except ε α) :
      (result.mapError fun _ => ()).toOption = result.toOption := by
    cases result <;> rfl
  have equal := mapError_outcome_of_looks (fun _ => ()) home
    (fun path looks => by rw [FileSystem.isFile_eq, FileSystem.isFile_eq, same path looks])
    fun path looks => FileSystem.mapError_readText_congr (same path looks)
  rw [← blurred, equal, blurred]

end Include

end ShaderBuild
