import Mathlib
import ShaderBuild.Proofs.Build.Reports
/-!
Where the dependencies come from by which a command is judged. One after the other, commands share
what is known under a key: each is judged by what the search of a command with its key has come to,
so by its own where commands with one key search alike.
-/
namespace ShaderBuild

open ShaderBuild.Task (Phase)

namespace Task

/-- The dependencies that the work on a command carries on. -/
def Phase.carried? : Phase → Option PathSet
  | .store set | .judge set | .restore set => some set
  | _ => none

/-- Dependencies that are known under a key or carried on for a command are vouched for. -/
structure Vouched (task : Task) (vouch : DependencyKey → PathSet → Prop) (phase : Phase)
    (state : BuildState) : Prop where
  known : ∀ key set, state.cache.find? key = some set → vouch key set
  carried : ∀ set, phase.carried? = some set → vouch task.key set

variable {task : Task} {tools : Tools} {vouch : DependencyKey → PathSet → Prop}
  {phase next : Phase} {begun state after : BuildState}

theorem Vouched.insert (vouched : task.Vouched vouch phase state) {set : PathSet}
    (alike : ∀ key other set, key.same other = true → vouch key set → vouch other set)
    (own : vouch task.key set) :
    ∀ key other, (state.cache.insert task.key set).find? key = some other → vouch key other := by
  intro key other found
  rw [DependencyStore.find?_insert] at found
  split at found
  · rename_i same
    obtain rfl := Option.some.inj found
    exact alike task.key key set (DependencyKey.same_iff.mpr same) own
  · exact vouched.known key other found

theorem vouched_of_move
    (alike : ∀ key other set, key.same other = true → vouch key set → vouch other set)
    (finds : ∀ set, task.discovered state.world.files = .ok set → vouch task.key set)
    (move : Move task tools phase state next after) (vouched : task.Vouched vouch phase state) :
    task.Vouched vouch next after := by
  have carries {state : BuildState} {set : PathSet} (onward : Phase)
      (carried : onward.carried? = some set)
      (known : ∀ key set, state.cache.find? key = some set → vouch key set)
      (own : vouch task.key set) : task.Vouched vouch onward state :=
    ⟨known, fun other is => Option.some.inj (carried.symm.trans is) ▸ own⟩
  cases move with
  | hit known => exact carries (.judge _) rfl vouched.known (vouched.known _ _ known)
  | discovered found => exact carries (.store _) rfl vouched.known (finds _ found)
  | rediscovered found => exact carries (.restore _) rfl vouched.known (finds _ found)
  | store set =>
    have own := vouched.carried set rfl
    exact carries (.judge _) rfl (vouched.insert alike own) own
  | restore set => exact ⟨vouched.insert alike (vouched.carried set rfl), nofun⟩
  | @succeeded _ stage => cases stage <;> exact ⟨vouched.known, nofun⟩
  | _ => exact ⟨vouched.known, nofun⟩

theorem Comes.vouched (comes : Comes task tools begun phase state)
    (noFile : begun.fileLevel = none)
    (alike : ∀ key other set, key.same other = true → vouch key set → vouch other set)
    (known : ∀ key set, begun.cache.find? key = some set → vouch key set)
    (finds : ∀ phase state, Comes task tools begun phase state →
      ∀ set, task.discovered state.world.files = .ok set → vouch task.key set) :
    state.fileLevel = none ∧ task.Vouched vouch phase state := by
  induction comes with
  | start => exact ⟨noFile, known, nofun⟩
  | @step phase state earlier running ih =>
    obtain ⟨quiet, vouched⟩ := ih
    have move := @move_of_step task tools phase state quiet running
    have quieted : task.Vouched vouch phase state.quiet := ⟨vouched.known, vouched.carried⟩
    have found : ∀ set, task.discovered state.quiet.world.files = .ok set → vouch task.key set :=
      finds phase state earlier
    have next := vouched_of_move alike found move quieted
    exact ⟨move.fileLevel.trans quiet, next.known, next.carried⟩

end Task

namespace Run

/-- A run of one command after the other comes to what is left of its commands in this state. -/
inductive Arrives (run : Run) (commands : List ShaderCommand) (begun : BuildState) :
    List ShaderCommand → BuildState → Prop where
  | start : Arrives run commands begun commands begun
  | next {command : ShaderCommand} {rest : List ShaderCommand} {state : BuildState}
      {outcome : Outcome} (earlier : Arrives run commands begun (command :: rest) state)
      (done : ((run.task command).process run.tools state).1 = .ok outcome) :
      Arrives run commands begun rest ((run.task command).process run.tools state).2

/-- Such a run modifies nothing that the search for the dependencies of a command looks at. -/
def Steady (run : Run) (commands : List ShaderCommand) (begun : BuildState) : Prop :=
  ∀ command rest before phase state, run.Arrives commands begun (command :: rest) before →
    (run.task command).Comes run.tools before phase state →
      state.world.files.workingDirectory = begun.world.files.workingDirectory ∧
      ∀ other ∈ commands, ∀ path, (run.task other).Searches begun.world.files path →
        state.world.files.locateFile path = begun.world.files.locateFile path

/-- The search of a command of the list, with the key, comes to the dependencies. -/
def Finds (run : Run) (commands : List ShaderCommand) (files : FileSystem) (key : DependencyKey)
    (set : PathSet) : Prop :=
  ∃ command ∈ commands, (run.task command).key.same key = true ∧
    (run.task command).discovered files = .ok set

variable {run : Run} {commands rest : List ShaderCommand} {command : ShaderCommand}
  {begun before state : BuildState} {set : PathSet}

theorem sequential_of_arrives (arrives : run.Arrives commands begun rest state) (total : Nat) :
    (run.sequential total commands begun).2 = (run.sequential total rest state).2 := by
  induction arrives with
  | start => rfl
  | @next command rest state outcome earlier done ih =>
    rw [ih, sequential]
    revert done
    generalize (run.task command).process run.tools state = ended
    obtain ⟨result, after⟩ := ended
    rintro rfl
    dsimp only
    generalize run.sequential total rest after = last
    obtain ⟨result, final⟩ := last
    cases result <;> rfl

theorem subset_of_arrives (arrives : run.Arrives commands begun rest state) : rest ⊆ commands := by
  induction arrives with
  | start => exact List.Subset.refl _
  | next earlier done ih => exact List.Subset.trans (List.subset_cons_self _ _) ih

private theorem Finds.alike (key other : DependencyKey) (set : PathSet)
    (same : key.same other = true) (finds : run.Finds commands begun.world.files key set) :
    run.Finds commands begun.world.files other set := by
  obtain ⟨command, member, own, found⟩ := finds
  refine ⟨command, member, ?_, found⟩
  rw [DependencyKey.same_iff] at own same ⊢
  rw [own, same]

private theorem discovered_of_steady (steady : run.Steady commands begun)
    (arrives : run.Arrives commands begun (command :: rest) before) {phase : Phase}
    (comes : (run.task command).Comes run.tools before phase state) {other : ShaderCommand}
    (member : other ∈ commands) :
    (run.task other).discovered state.world.files =
      (run.task other).discovered begun.world.files :=
  have same := steady command rest before phase state arrives comes
  Task.discovered_congr same.1 (same.2 other member)

private theorem vouched_of_comes (steady : run.Steady commands begun)
    (arrives : run.Arrives commands begun (command :: rest) before)
    (noFile : before.fileLevel = none)
    (known : ∀ key set, before.cache.find? key = some set →
      run.Finds commands begun.world.files key set)
    {phase : Phase} (comes : (run.task command).Comes run.tools before phase state) :
    state.fileLevel = none ∧
      (run.task command).Vouched (run.Finds commands begun.world.files) phase state := by
  have member := subset_of_arrives arrives List.mem_cons_self
  refine comes.vouched noFile Finds.alike known fun phase state comes set found => ?_
  rw [discovered_of_steady steady arrives comes member] at found
  exact ⟨command, member, DependencyKey.same_iff.mpr rfl, found⟩

private theorem known_of_arrives (noFile : begun.fileLevel = none)
    (fresh : begun.cache = .empty) (steady : run.Steady commands begun)
    (arrives : run.Arrives commands begun rest state) :
    state.fileLevel = none ∧ ∀ key set, state.cache.find? key = some set →
      run.Finds commands begun.world.files key set := by
  induction arrives with
  | start =>
    refine ⟨noFile, fun key set found => ?_⟩
    rw [fresh] at found
    cases found
  | @next command rest state outcome earlier done ih =>
    obtain ⟨quiet, vouched⟩ := vouched_of_comes steady earlier ih.1 ih.2
      (Task.comes_process _ _ _)
    exact ⟨quiet, vouched.known⟩

/-- The dependencies by which a command is judged are those that the search of a command with its
key comes to. They are its own where commands with its key have its source and its libraries. -/
theorem discovered_of_judged (noFile : begun.fileLevel = none) (fresh : begun.cache = .empty)
    (steady : run.Steady commands begun)
    (arrives : run.Arrives commands begun (command :: rest) before)
    (judges : (run.task command).Comes run.tools before (.judge set) state) :
    run.Finds commands state.world.files (run.task command).key set ∧
      ((∀ other ∈ commands, (run.task other).key.same (run.task command).key = true →
        other.source = command.source ∧ other.libraries = command.libraries) →
      (run.task command).discovered state.world.files = .ok set) := by
  obtain ⟨quiet, known⟩ := known_of_arrives noFile fresh steady arrives
  have vouched := (vouched_of_comes steady arrives quiet known judges).2
  obtain ⟨other, member, same, found⟩ := vouched.carried set rfl
  rw [← discovered_of_steady steady arrives judges member] at found
  refine ⟨⟨other, member, same, found⟩, fun alike => ?_⟩
  obtain ⟨source, libraries⟩ := alike other member same
  have identity := DependencyKey.same_iff.mp same
  have dialect : other.dialect = command.dialect := congrArg (·.2.1) identity
  have variant : other.variant = command.variant := congrArg (·.2.2) identity
  rw [← found]
  simp only [Task.discovered, Task.searchPath, Task.source, Task.headers, Task.layout, task, source,
    libraries, dialect, variant]

/-- The commands of a list, to be worked on side by side, where any may come to make the directory
of its artifacts. -/
def crew (run : Run) (commands : List ShaderCommand) (begun : BuildState) :
    Team (Fin commands.length) :=
  { run.team commands begun with makers := fun _ => True }

private theorem reaches_of_arrives (arrives : run.Arrives commands begun rest state) :
    ∃ front, commands = front ++ rest ∧ ∃ phases, (run.crew commands begun).Reaches phases state ∧
      ∀ worker, front.length ≤ worker.val → phases worker = .lookup := by
  induction arrives with
  | start => exact ⟨[], rfl, _, .start, fun _ _ => rfl⟩
  | @next command rest state outcome earlier done ih =>
    obtain ⟨front, whole, phases, reaches, waits⟩ := ih
    have within : front.length < commands.length := by simp [whole]
    have own : (run.crew commands begun).tasks ⟨front.length, within⟩ = run.task command :=
      congrArg run.task (by simp [whole])
    have next := reaches.process (waits ⟨front.length, within⟩ (Nat.le_refl _))
    rw [own] at next
    refine ⟨front ++ [command], by simp [whole], _, next, ?_⟩
    rw [List.length_append, List.length_singleton]
    exact Team.waits_next within waits _

theorem steady_of_confined (noFile : begun.fileLevel = none)
    (confined : (run.crew commands begun).Confined)
    (apart : ∀ other ∈ commands, ∀ path, (run.task other).Searches begun.world.files path →
      ∀ laid, (run.crew commands begun).Laid laid → ∀ location, laid.Stops path location →
        ∀ owner, ¬(run.crew commands begun).Owned owner location)
    (unmoved : ∀ other ∈ commands, ∀ path, (run.task other).Searches begun.world.files path →
      ∀ laid, (run.crew commands begun).Laid laid →
        laid.locateFile path = begun.world.files.locateFile path) : run.Steady commands begun := by
  intro command rest before phase state arrives comes
  obtain ⟨front, whole, phases, reaches, waits⟩ := reaches_of_arrives arrives
  have within : front.length < commands.length := by simp [whole]
  have own : (run.crew commands begun).tasks ⟨front.length, within⟩ = run.task command :=
    congrArg run.task (by simp [whole])
  rw [← own] at comes
  have reaches := reaches.comes (waits ⟨front.length, within⟩ (Nat.le_refl _)) comes
  obtain ⟨_, base, above⟩ := Team.over_of_reaches confined (fun _ => trivial) noFile reaches
  refine ⟨above.workingDirectory, fun other member path searches => ?_⟩
  have leads : state.world.files.locate .target path = base.locate .target path := by
    refine above.framed.locate (fun location stops => ?_) .target
    rw [above.laid.fileAt?]
    exact above.file location (apart other member path searches base above.laid location stops)
  rw [FileSystem.locateFile_congr leads]
  exact unmoved other member path searches base above.laid

/-- A template that includes a file which two libraries have, and the directory for artifacts. -/
def sharedFiles : FileSystem where
  entries :=
    let sources (library : String) := ["libraries".toList, library.toList, "src".toList]
    let file (text : String) : Node := .file ⟨.text text.toList, 5, true, false⟩
    let library (name : String) : List (Location × Node) :=
      [((sources name).take 2, .directory), (sources name, .directory),
        (sources name ++ ["x.slh".toList], file "")]
    [(["a.slv".toList], file "<@include x.slh@>"), (["out".toList], .directory),
      (["libraries".toList], .directory)] ++ library "gpu" ++ library "net"
  workingLocation := []
  workingDirectory := Path.of "/"

/-- A dry run. -/
def sharedRun : Run :=
  ⟨{ RunSettings.ofPlaces (Path.of "/list") (Path.of "/tools") (Path.of "/build") (Path.of "/") with
      dryRun := true }, writingTools⟩

def sharedState : BuildState :=
  ⟨⟨sharedFiles, fun tick => tick + 10, 0⟩, .empty, [], [], none⟩

/-- A command for the template, with one library. -/
def sharedCommand (base library : String) : ShaderCommand :=
  ⟨"410".toList, .mono, Path.of "a.slv", Path.of base, [library.toList]⟩

/-- One command with a library, and then another with the same or another library. -/
def sharedCommands (library : String) : List ShaderCommand :=
  [sharedCommand "out/a" "gpu", sharedCommand "out/b" library]

/-- The file of the library that is included. -/
def sharedInclude (library : String) : Path :=
  Path.of ("/libraries/" ++ library ++ "/src/x.slh")

/-- The dependencies of a command with that library. -/
def sharedSet (library : String) : PathSet :=
  (PathSet.empty.insert (sharedInclude library)).withSource sharedFiles
    (sharedRun.task (sharedCommand "out/a" library)).source
    (sharedRun.task (sharedCommand "out/a" library)).headers

/-- What the search of such a command looks at. -/
def sharedLooks (library : String) : List Path :=
  let task := sharedRun.task (sharedCommand "out/a" library)
  task.source :: sharedInclude library :: task.searchPath.tried sharedFiles "x.slh".toList

private theorem source_shared (base library : String) :
    sharedFiles.readText (sharedRun.task (sharedCommand base library)).source =
      .ok "<@include x.slh@>".toList := by
  change sharedFiles.readText (sharedRun.task (sharedCommand "" "")).source = _
  cbv

private theorem ofText_shared (path : Path) :
    Errand.ofText path "<@include x.slh@>".toList = [.fetch path "x.slh".toList] := by
  cbv

section

variable {base library : String}
  (resolved : (sharedRun.task (sharedCommand base library)).searchPath.resolve? sharedFiles
    "x.slh".toList = some (sharedInclude library))
  (read : sharedFiles.readText (sharedInclude library) = .ok [])
include resolved read

private theorem discovered_shared :
    (sharedRun.task (sharedCommand base library)).discovered sharedFiles =
      .ok (sharedSet library) := by
  refine discover_eq_ok.mpr ⟨_, _, source_shared base library, ?_, rfl⟩
  have none : Errand.ofText (sharedInclude library) [] = [] := by cbv
  rw [ofText_shared, Include.outcome_read _ resolved rfl, read, Except.mapError, Except.bind, none]
  exact Include.outcome_nil _ _ _

private theorem searches_shared {path : Path}
    (searches : (sharedRun.task (sharedCommand base library)).Searches sharedFiles path) :
    path ∈ sharedLooks library := by
  have none : Errand.ofText (sharedInclude library) [] = [] := by cbv
  cases searches with
  | source => exact List.mem_cons_self
  | included again looks =>
    obtain rfl := Except.ok.inj ((source_shared base library).symm.trans again)
    rw [ofText_shared] at looks
    cases looks with
    | tried tries => exact List.mem_cons_of_mem _ (List.mem_cons_of_mem _ tries)
    | present _ present => exact absurd present Bool.false_ne_true
    | read found =>
      obtain rfl := Option.some.inj (resolved.symm.trans found)
      exact List.mem_cons_of_mem _ List.mem_cons_self
    | inside found _ text later =>
      obtain rfl := Option.some.inj (resolved.symm.trans found)
      obtain rfl := Except.ok.inj (read.symm.trans text)
      rw [none] at later
      cases later

end

private theorem judged_shared (library : String) :
    ∃ before state,
      sharedRun.Arrives (sharedCommands library) sharedState [sharedCommand "out/b" library] before ∧
      (sharedRun.task (sharedCommand "out/b" library)).Comes sharedRun.tools before
        (.judge (sharedSet "gpu")) state ∧ state.world.files = sharedFiles := by
  have found : (sharedRun.task (sharedCommand "out/a" "gpu")).discovered sharedFiles =
      .ok (sharedSet "gpu") := discovered_shared (by cbv) (by cbv)
  have stale : (sharedRun.task (sharedCommand "out/a" "gpu")).isStale sharedFiles
      (sharedSet "gpu") = true := by cbv
  obtain ⟨ends, after⟩ := @Task.Moves.complete (sharedRun.task (sharedCommand "out/a" "gpu"))
    sharedRun.tools .lookup sharedState _ _
    (.step (.miss rfl) (.step (.discovered found) (.step (.store _) (.step (.report stale rfl)
      (.done _ _))))) rfl
  have arrives := Arrives.next (.start : sharedRun.Arrives (sharedCommands library) sharedState _ _)
    ends
  have noFile : ((sharedRun.task (sharedCommand "out/a" "gpu")).process sharedRun.tools
      sharedState).2.fileLevel = none := congrArg BuildState.fileLevel after
  obtain ⟨state, comes, same⟩ := @Task.Comes.move (sharedRun.task (sharedCommand "out/b" library))
    _ _ _ _ .start noFile _ _ _ after (.hit rfl)
  exact ⟨_, state, arrives, comes, congrArg (·.world.files) same⟩

private theorem laid_shared {library : String} {laid : FileSystem}
    (is : (sharedRun.crew (sharedCommands library) sharedState).Laid laid) :
    laid = sharedFiles := by
  induction is with
  | start => rfl
  | @make laid made worker path earlier maker wanted done ih =>
    subst ih
    have out : sharedFiles.makeDirectory (Path.of "/out") = .error .alreadyExists := by cbv
    have root : sharedFiles.makeDirectory (Path.of "/") = .error .alreadyExists := by cbv
    have listed : ∀ command ∈ sharedCommands library,
        (sharedRun.task command).directories = [Path.of "/out", Path.of "/"] := by
      have first : (sharedRun.task (sharedCommand "out/a" "")).directories =
          [Path.of "/out", Path.of "/"] := by cbv
      have second : (sharedRun.task (sharedCommand "out/b" "")).directories =
          [Path.of "/out", Path.of "/"] := by cbv
      exact List.forall_mem_cons.mpr ⟨first, List.forall_mem_cons.mpr ⟨second, List.forall_mem_nil _⟩⟩
    change path ∈ (sharedRun.task (sharedCommands library)[worker]).directories at wanted
    rw [listed (sharedCommands library)[worker] (List.getElem_mem _), List.mem_cons,
      List.mem_singleton] at wanted
    rcases wanted with rfl | rfl
    · cases done.symm.trans out
    · cases done.symm.trans root

private theorem steady_shared {library : String}
    (resolved : (sharedRun.task (sharedCommand "out/b" library)).searchPath.resolve? sharedFiles
      "x.slh".toList = some (sharedInclude library))
    (read : sharedFiles.readText (sharedInclude library) = .ok [])
    (clear : sharedFiles.clear (sharedLooks "gpu" ++ sharedLooks library)
      (((sharedRun.task (sharedCommand "out/a" "")).artifacts.all ++
        (sharedRun.task (sharedCommand "out/b" "")).artifacts.all).filterMap
          sharedFiles.outlet?) = true) :
    sharedRun.Steady (sharedCommands library) sharedState := by
  have listed : ∀ command ∈ sharedCommands library, ∀ path,
      (sharedRun.task command).Searches sharedFiles path →
        path ∈ sharedLooks "gpu" ++ sharedLooks library := by
    refine List.forall_mem_cons.mpr ⟨fun path looks => ?_,
      List.forall_mem_cons.mpr ⟨fun path looks => ?_, List.forall_mem_nil _⟩⟩
    · exact List.mem_append_left _ (searches_shared (by cbv) (by cbv) looks)
    · exact List.mem_append_right _ (searches_shared resolved read looks)
  refine steady_of_confined rfl (fun _ => Task.confined_writing) ?_ ?_
  · rintro command member path looks laid is location stops owner ⟨now, isToo, artifact, own, leads⟩
    obtain rfl := laid_shared is
    obtain rfl := laid_shared isToo
    refine FileSystem.not_mem_of_clear clear (listed command member path looks) stops
      (List.mem_filterMap.mpr ⟨artifact, ?_, leads⟩)
    have written : ∀ command ∈ sharedCommands library,
        artifact ∈ (sharedRun.task command).artifacts.all →
          artifact ∈ (sharedRun.task (sharedCommand "out/a" "")).artifacts.all ++
            (sharedRun.task (sharedCommand "out/b" "")).artifacts.all :=
      List.forall_mem_cons.mpr ⟨List.mem_append_left _,
        List.forall_mem_cons.mpr ⟨List.mem_append_right _, List.forall_mem_nil _⟩⟩
    exact written _ (List.getElem_mem _) own
  · intro command member path looks laid is
    rw [laid_shared is]
    rfl

/-- Two commands with one library: the second is judged by what the search of the first has come to,
and its own would come to the same. -/
theorem discovered_of_judged_shared :
    ∃ before state,
      sharedRun.Arrives (sharedCommands "gpu") sharedState [sharedCommand "out/b" "gpu"] before ∧
      (sharedRun.task (sharedCommand "out/b" "gpu")).Comes sharedRun.tools before
        (.judge (sharedSet "gpu")) state ∧
      (sharedRun.task (sharedCommand "out/b" "gpu")).discovered state.world.files =
        .ok (sharedSet "gpu") := by
  have steady : sharedRun.Steady (sharedCommands "gpu") sharedState :=
    steady_shared (by cbv) (by cbv) (by cbv)
  obtain ⟨before, state, arrives, comes, _⟩ := judged_shared "gpu"
  refine ⟨before, state, arrives, comes, (discovered_of_judged rfl rfl steady arrives comes).2 ?_⟩
  exact List.forall_mem_cons.mpr ⟨fun _ => ⟨rfl, rfl⟩,
    List.forall_mem_cons.mpr ⟨fun _ => ⟨rfl, rfl⟩, List.forall_mem_nil _⟩⟩

/-- Two commands with a library each: the second is judged by what the search of the first has come
to, and its own comes to other dependencies. -/
theorem discovered_ne_of_judged_shared :
    sharedRun.Steady (sharedCommands "net") sharedState ∧
      ∃ before state set,
        sharedRun.Arrives (sharedCommands "net") sharedState [sharedCommand "out/b" "net"] before ∧
        (sharedRun.task (sharedCommand "out/b" "net")).Comes sharedRun.tools before
          (.judge set) state ∧
        (sharedRun.task (sharedCommand "out/b" "net")).discovered state.world.files ≠ .ok set := by
  obtain ⟨before, state, arrives, comes, same⟩ := judged_shared "net"
  refine ⟨steady_shared (by cbv) (by cbv) (by cbv), before, state, _, arrives, comes, ?_⟩
  rw [same, discovered_shared (by cbv) (by cbv)]
  intro equal
  have differ : (sharedSet "net" == sharedSet "gpu") = false := by cbv
  rw [Except.ok.inj equal, beq_self_eq_true] at differ
  cases differ

end Run

end ShaderBuild
