import ShaderBuild.Proofs.Build.Course
import ShaderBuild.Proofs.Dependency.Looks
/-!
What the work on a command looks at, phase by phase. Among files that agree on it the phase comes to
the same.
-/
namespace ShaderBuild

namespace Task

variable {task : Task} {first second : FileSystem} {set : PathSet}

/-- What the search for the dependencies of the command looks at. -/
inductive Searches (task : Task) (files : FileSystem) : Path → Prop where
  | source : Searches task files task.source
  | included {text : Text} {path : Path} (read : files.readText task.source = .ok text)
      (looks : Include.Looks files task.searchPath (Errand.ofText task.source text) .empty path) :
      Searches task files path

/-- What the expansion of the source looks at. -/
inductive Expands (task : Task) (files : FileSystem) : Path → Prop where
  | source {stage : ShaderStage} (known : ShaderStage.ofPath? task.source = some stage) :
      Expands task files task.source
  | included {stage : ShaderStage} {text rendered : Text} {path : Path}
      (known : ShaderStage.ofPath? task.source = some stage)
      (read : files.readText task.source = .ok text)
      (blocks : (defineBlocks (files.absolute task.source) text).run.value = .ok rendered)
      (looks : Include.Looks files task.searchPath
        (Errand.ofText (files.absolute task.source) (Source.settled rendered)) .empty path) :
      Expands task files path
  | header {stage : ShaderStage} {text : Text} {body : Text × PathSet} {path : Path}
      (known : ShaderStage.ofPath? task.source = some stage)
      (read : files.readText task.source = .ok text)
      (done : ((Source.body ⟨files.absolute task.source, text, stage⟩ files task.searchPath).run
        files).value = .ok body)
      (member : path ∈ (task.headers.mapM Expanding.readText).reads files) : Expands task files path

/-- What a phase looks up, reads or compares times of, but for the artifacts. -/
inductive Finds (task : Task) (files : FileSystem) : Phase → Path → Prop where
  | discover {path : Path} (searches : task.Searches files path) : Finds task files .discover path
  | rediscover {path : Path} (searches : task.Searches files path) :
      Finds task files .rediscover path
  | judge {set : PathSet} {path : Path} (unforced : task.settings.force = false)
      (member : path ∈ set.paths) : Finds task files (.judge set) path
  | expand {path : Path} (expands : task.Expands files path) : Finds task files .expand path

theorem discovered_congr (home : second.workingDirectory = first.workingDirectory)
    (same : ∀ path, task.Searches first path →
      second.locateFile path = first.locateFile path) :
    task.discovered second = task.discovered first := by
  rw [discovered, discovered, value_discover, value_discover,
    FileSystem.readText_congr (same _ .source)]
  cases read : first.readText task.source with
  | error problem => rw [Except.mapError, Except.bind, Except.bind]
  | ok text =>
    rw [Except.mapError, Except.bind, Except.bind]
    change Except.bind (Include.outcome _ _ _ _) _ = Except.bind (Include.outcome _ _ _ _) _
    rw [Include.outcome_of_looks home fun path looks => same path (.included read looks)]
    simp only [PathSet.withSource_congr home.symm]

/-- The expansion comes to the same where the same is found at all that it looks at. -/
theorem expand_congr (home : second.workingDirectory = first.workingDirectory)
    (same : ∀ path, task.Expands first path →
      second.locateFile path = first.locateFile path) :
    ((task.expand second).run second).value = ((task.expand first).run first).value := by
  have absolute : second.absolute = first.absolute := FileSystem.absolute_congr home
  unfold expand
  rw [Expanding.value_bind, Expanding.value_bind]
  cases known : ShaderStage.ofPath? task.source with
  | none =>
    unfold Source.read
    rw [known]
    rfl
  | some stage =>
    rw [Source.value_read _ known, Source.value_read _ known, absolute,
      FileSystem.readText_congr (same _ (.source known))]
    cases read : first.readText task.source with
    | error problem => rw [Except.mapError, Except.bind, Except.bind, Except.bind]
    | ok text =>
      rw [Except.mapError, Except.bind, Except.bind, Except.bind, Source.value_expand,
        Source.value_expand]
      have body : ((Source.body ⟨first.absolute task.source, text, stage⟩ second
          task.searchPath).run second).value =
          ((Source.body ⟨first.absolute task.source, text, stage⟩ first
            task.searchPath).run first).value := by
        rw [Source.value_body, Source.value_body]
        cases blocks : (defineBlocks (first.absolute task.source) text).run.value with
        | error problem => rw [Except.bind, Except.bind]
        | ok rendered =>
          rw [Except.bind, Except.bind]
          change Except.bind (Include.outcome _ _ _ _) _ = Except.bind (Include.outcome _ _ _ _) _
          rw [Include.outcome_of_looks home fun path looks =>
            same path (.included known read blocks looks)]
      rw [body]
      cases done : ((Source.body ⟨first.absolute task.source, text, stage⟩ first
          task.searchPath).run first).value with
      | error problem => rw [Except.bind, Except.bind]
      | ok found =>
        have headers := @Expanding.value_congr _ first second
          (task.headers.mapM Expanding.readText) fun path member =>
            FileSystem.readText_congr (same path (.header known read done member))
        change Except.bind ((task.headers.mapM Expanding.readText).run second).value _ =
          Except.bind ((task.headers.mapM Expanding.readText).run first).value _
        rw [headers]
        simp only [PathSet.withSource_congr home.symm]

theorem isStale_of_times
    (same : task.settings.force = false → ∀ path ∈ set.paths ++ task.artifacts.all,
      second.modified? path = first.modified? path) :
    task.isStale second set = task.isStale first set := by
  rw [isStale, isStale]
  cases forced : task.settings.force with
  | true => rw [Bool.true_or, Bool.true_or]
  | false =>
    rw [Bool.false_or, Bool.false_or, Freshness.filesStale, Freshness.filesStale,
      List.map_congr_left fun path member => same forced path (List.mem_append_left _ member),
      List.map_congr_left fun path member => same forced path (List.mem_append_right _ member)]

theorem isStale_congr
    (inputs : ∀ path, task.Finds first (.judge set) path →
      second.modified? path = first.modified? path)
    (outputs : ∀ artifact ∈ task.artifacts.all,
      second.modified? artifact = first.modified? artifact) :
    task.isStale second set = task.isStale first set := by
  refine isStale_of_times fun unforced path member => ?_
  rcases List.mem_append.mp member with listed | own
  · exact inputs path (.judge unforced listed)
  · exact outputs path own

/-- Before anything is written the files are those of the beginning, from a point on with the
directory of the artifacts made. -/
def Untouched (task : Task) (begun now : FileSystem) : Phase → Prop
  | .lookup | .discover | .store _ | .judge _ | .refresh | .prepare => now = begun
  | .rediscover | .restore _ | .expand | .write _ => now = task.prepared begun
  | _ => True

variable {task : Task} {tools : Tools} {phase next : Phase} {begun state after : BuildState}

theorem untouched_of_comes (comes : Comes task tools begun phase state)
    (noFile : begun.fileLevel = none) :
    state.fileLevel = none ∧ task.Untouched begun.world.files state.world.files phase := by
  refine comes.along noFile (motive := fun phase state =>
    task.Untouched begun.world.files state.world.files phase) rfl ?_
  intro phase state next after move untouched
  cases move with
  | prepared => exact congrArg task.prepared untouched
  | @succeeded _ stage => cases stage <;> trivial
  | hit | miss | discovered | store | fresh | rebuild | rediscovered | restore | expanded =>
    exact untouched
  | _ => trivial

theorem judged_of_comes {set : PathSet} (comes : Comes task tools begun (.judge set) state)
    (noFile : begun.fileLevel = none) :
    begun.cache.find? task.key = some set ∨ task.discovered begun.world.files = .ok set := by
  refine (comes.along noFile (motive := fun phase state => match phase with
    | .lookup => state.world.files = begun.world.files ∧ state.cache = begun.cache
    | .discover => state.world.files = begun.world.files
    | .store set => task.discovered begun.world.files = .ok set
    | .judge set => begun.cache.find? task.key = some set ∨
        task.discovered begun.world.files = .ok set
    | _ => True) ⟨rfl, rfl⟩ ?_).2
  intro phase state next after move holds
  cases move with
  | hit known => exact .inl (holds.2 ▸ known)
  | miss => exact holds.1
  | discovered found => exact holds ▸ found
  | store => exact .inr holds
  | @succeeded _ stage => cases stage <;> trivial
  | _ => trivial

theorem Searches.of_empty {files : FileSystem} {path : Path} (searches : task.Searches files path)
    (read : ∀ text, files.readText task.source = .ok text → text = []) : path = task.source := by
  cases searches with
  | source => rfl
  | included again looks =>
    obtain rfl := read _ again
    have none : Errand.ofText task.source [] = [] := by cbv
    rw [none] at looks
    cases looks

theorem Expands.of_empty {files : FileSystem} {path : Path} (expands : task.Expands files path)
    (read : ∀ text, files.readText task.source = .ok text → text = []) :
    path = task.source ∨ path ∈ task.headers := by
  cases expands with
  | source => exact .inl rfl
  | included _ again blocks looks =>
    obtain rfl := read _ again
    have kept : ∀ path, (defineBlocks path []).run.value = .ok [] := fun _ => by cbv
    rw [kept] at blocks
    obtain rfl := Except.ok.inj blocks
    have none : ∀ path, Errand.ofText path (Source.settled []) = [] := fun _ => by cbv
    rw [none] at looks
    cases looks
  | header _ _ _ member => exact .inr (Expanding.mem_of_mem_reads member)

/-- The work on a template without text, of which nothing is known, finds the template, its headers
and the dependencies. -/
theorem finds_of_empty (comes : Comes task tools begun phase state)
    (noFile : begun.fileLevel = none) (unknown : begun.cache.find? task.key = none)
    (read : begun.world.files.readText task.source = .ok [])
    (readToo : (task.prepared begun.world.files).readText task.source = .ok []) {path : Path}
    (finds : task.Finds state.world.files phase path) :
    path ∈ task.source :: (task.headers ++
      (PathSet.empty.withSource begun.world.files task.source task.headers).paths) := by
  have untouched := (untouched_of_comes comes noFile).2
  have empty {files : FileSystem} (read : files.readText task.source = .ok []) :
      ∀ text, files.readText task.source = .ok text → text = [] := fun _ again =>
    Except.ok.inj (again.symm.trans read)
  cases finds with
  | discover looks =>
    rw [show state.world.files = begun.world.files from untouched] at looks
    exact List.mem_cons.mpr (.inl (looks.of_empty (empty read)))
  | rediscover looks =>
    rw [show state.world.files = task.prepared begun.world.files from untouched] at looks
    exact List.mem_cons.mpr (.inl (looks.of_empty (empty readToo)))
  | judge _ member =>
    rcases judged_of_comes comes noFile with known | found
    · rw [unknown] at known
      cases known
    · obtain rfl := Except.ok.inj ((discovered_empty read).symm.trans found)
      exact List.mem_cons_of_mem _ (List.mem_append_right _ member)
  | expand expands =>
    rw [show state.world.files = task.prepared begun.world.files from untouched] at expands
    rcases expands.of_empty (empty readToo) with rfl | member
    · exact List.mem_cons_self
    · exact List.mem_cons_of_mem _ (List.mem_append_left _ member)

/-- The work on a template that cannot be read, of which nothing is known, finds nothing else. -/
theorem finds_of_unreadable (comes : Comes task tools begun phase state)
    (noFile : begun.fileLevel = none) (unknown : begun.cache.find? task.key = none)
    {problem : FileError} (read : begun.world.files.readText task.source = .error problem)
    {path : Path} (finds : task.Finds state.world.files phase path) : path = task.source := by
  have fails : task.discovered begun.world.files =
      .error (.unreadable task.source problem) := by
    rw [discovered, value_discover, read]
    rfl
  have stays := (comes.along noFile (motive := fun phase state => match phase with
    | .lookup => state.world.files = begun.world.files ∧ state.cache = begun.cache
    | .discover => state.world.files = begun.world.files
    | .finished _ => True
    | _ => False) ⟨rfl, rfl⟩ ?_).2
  · cases finds with
    | discover searches =>
      rw [show state.world.files = begun.world.files from stays] at searches
      cases searches with
      | source => rfl
      | included again => cases read.symm.trans again
    | _ => exact stays.elim
  · intro phase state next after move holds
    cases move with
    | hit known =>
      rw [holds.2, unknown] at known
      cases known
    | miss => exact holds.1
    | discovered found =>
      rw [show state.world.files = begun.world.files from holds, fails] at found
      cases found
    | undiscovered => trivial
    | refreshed | unrefreshed | prepared | unprepared | expanded | unexpanded | written |
      unwritten | unstarted | exited | succeeded | store | fresh | report | rebuild |
      rediscovered | unrediscovered | restore => exact holds.elim

/-- Where the work alone ends, it ends as it does when nothing comes in between. -/
theorem Comes.process {result : Except BuildFailure Outcome}
    (comes : Comes task tools begun (.finished result) state) :
    task.process tools begun = (result, state) := by
  have onward : ∀ phase state, Comes task tools begun phase state →
      task.process tools begun = task.complete tools phase state := by
    intro phase state comes
    induction comes with
    | start => rfl
    | @step phase state earlier running ih =>
      rw [ih, complete]
      split
      · simp_all
      · rfl
  rw [onward _ _ comes, complete]
  rfl

end Task

end ShaderBuild
