import Mathlib
import ShaderBuild.Build.Run
import ShaderBuild.Proofs.Build.Alone
/-!
The reports of runs over independent commands. One command after the other or all side by side, the
report is the same where no command fails; otherwise both fail, and the failure that is met first is
the first that is listed.
-/
namespace ShaderBuild

open ShaderBuild.Task (Phase)

namespace Run

/-- The commands of a list, to be worked on side by side. -/
def team (run : Run) (commands : List ShaderCommand) (begun : BuildState) :
    Team (Fin commands.length) where
  tasks worker := run.task commands[worker]
  tools := run.tools
  begun := begun
  makers worker :=
    ∃ state, Task.Comes (run.task commands[worker]) run.tools begun .prepare state

/-- What a command comes to alone. -/
def alone (run : Run) (begun : BuildState) (command : ShaderCommand) : CommandResult :=
  ((run.task command).process run.tools begun).1

/-- What the commands come to, each alone. -/
def results (run : Run) (begun : BuildState) (commands : List ShaderCommand) :
    List (ShaderCommand × CommandResult) :=
  commands.map fun command => (command, run.alone begun command)

/-- Either no command fails alone and both runs give one report, or one fails and both runs fail,
with a failure that is the first of all. -/
def Concord (run : Run) (begun : BuildState) (commands : List ShaderCommand)
    (sequential parallel : Except BuildFailure RunReport) : Prop :=
  ((∀ command ∈ commands, ∃ outcome, run.alone begun command = .ok outcome) ∧
    ∃ report, sequential = .ok report ∧ parallel = .ok report) ∨
  ∃ command ∈ commands, ∃ problem, run.alone begun command = .error problem ∧ ∃ others,
    sequential = .error (.commandsFailed commands.length [.of command problem]) ∧
    parallel = .error (.commandsFailed commands.length (.of command problem :: others))

variable {run : Run} {commands : List ShaderCommand} {begun state : BuildState}
  {phases : Fin commands.length → Phase}

/-- The first failure ends a run of one command after the other. -/
def firstFailure (total : Nat) (results : List (ShaderCommand × CommandResult)) :
    Except BuildFailure RunReport :=
  match partitionResults results with
  | (done, []) => .ok ⟨done⟩
  | (_, failure :: _) => .error (.commandsFailed total [failure])

/-- All failures are listed, or there is a report. -/
def allFailures (total : Nat) (results : List (ShaderCommand × CommandResult)) :
    Except BuildFailure RunReport :=
  match partitionResults results with
  | (done, []) => .ok ⟨done⟩
  | (_, failures) => .error (.commandsFailed total failures)

private theorem partition_results (begun : BuildState) (commands : List ShaderCommand) :
    (partitionResults (run.results begun commands)).2 = [] ∧
        (∀ command ∈ commands, ∃ outcome, run.alone begun command = .ok outcome) ∨
      ∃ command ∈ commands, ∃ problem, run.alone begun command = .error problem ∧ ∃ others,
        (partitionResults (run.results begun commands)).2 = .of command problem :: others := by
  induction commands with
  | nil => exact .inl ⟨rfl, by simp⟩
  | cons command rest ih =>
    have first {result : CommandResult} (ended : run.alone begun command = result) :
        run.results begun (command :: rest) = (command, result) :: run.results begun rest :=
      congrArg (fun result => (command, result) :: run.results begun rest) ended
    cases ended : run.alone begun command with
    | error problem =>
      rw [first ended]
      exact .inr ⟨command, List.mem_cons_self, problem, ended, _, rfl⟩
    | ok outcome =>
      rw [first ended]
      rcases ih with ⟨none, all⟩ | ⟨failing, member, problem, failed, others, failures⟩
      · exact .inl ⟨none, List.forall_mem_cons.mpr ⟨⟨outcome, ended⟩, all⟩⟩
      · exact .inr ⟨failing, List.mem_cons_of_mem _ member, problem, failed, others, failures⟩

theorem concord_results (begun : BuildState) (commands : List ShaderCommand) :
    run.Concord begun commands (firstFailure commands.length (run.results begun commands))
      (allFailures commands.length (run.results begun commands)) := by
  unfold firstFailure allFailures
  rcases @partition_results run begun commands with
    ⟨none, all⟩ | ⟨command, member, problem, failed, others, first⟩
  · refine .inl ⟨all, ⟨(partitionResults (run.results begun commands)).1⟩, ?_⟩
    revert none
    generalize partitionResults (run.results begun commands) = parts
    obtain ⟨done, failures⟩ := parts
    rintro rfl
    exact ⟨rfl, rfl⟩
  · refine .inr ⟨command, member, problem, failed, others, ?_⟩
    revert first
    generalize partitionResults (run.results begun commands) = parts
    obtain ⟨done, failures⟩ := parts
    rintro rfl
    exact ⟨rfl, rfl⟩

/-- What the commands come to, one worked on after the other whether others fail or not, and the
state after them. -/
def worked (run : Run) : List ShaderCommand → BuildState → List CommandResult × BuildState
  | [], state => ([], state)
  | command :: rest, state =>
    let done := (run.task command).process run.tools state
    let later := run.worked rest done.2
    (done.1 :: later.1, later.2)

theorem length_worked (run : Run) (commands : List ShaderCommand) (state : BuildState) :
    (run.worked commands state).1.length = commands.length := by
  induction commands generalizing state with
  | nil => rfl
  | cons command rest ih => simp [worked, ih]

theorem firstFailure_cons {command : ShaderCommand} {outcome : Outcome} (total : Nat)
    (rest : List (ShaderCommand × CommandResult)) :
    firstFailure total ((command, .ok outcome) :: rest) =
      (firstFailure total rest).map fun report => ⟨(command, outcome) :: report.commands⟩ := by
  unfold firstFailure
  rw [partitionResults]
  generalize partitionResults rest = parts
  obtain ⟨done, failures⟩ := parts
  cases failures <;> rfl

/-- One command after the other ends at the first that fails. -/
theorem sequential_eq (run : Run) (total : Nat) (commands : List ShaderCommand)
    (state : BuildState) : (run.sequential total commands state).1 =
      firstFailure total (commands.zip (run.worked commands state).1) := by
  induction commands generalizing state with
  | nil => rfl
  | cons command rest ih =>
    have rests := ih ((run.task command).process run.tools state).2
    rw [sequential, worked, List.zip_cons_cons]
    revert rests
    generalize (run.task command).process run.tools state = done
    obtain ⟨result, after⟩ := done
    cases result with
    | error problem => exact fun _ => rfl
    | ok outcome =>
      dsimp only
      intro rests
      rw [firstFailure_cons, ← rests]
      generalize run.sequential total rest after = ended
      obtain ⟨answer, last⟩ := ended
      cases answer <;> rfl

/-- If none fails, all commands have been worked on. -/
theorem sequential_state {total : Nat} {report : RunReport}
    (done : (run.sequential total commands state).1 = .ok report) :
    (run.sequential total commands state).2 = (run.worked commands state).2 := by
  induction commands generalizing state report with
  | nil => rfl
  | cons command rest ih =>
    have rests := @ih ((run.task command).process run.tools state).2
    rw [worked]
    rw [sequential] at done ⊢
    revert rests done
    generalize (run.task command).process run.tools state = first
    obtain ⟨result, after⟩ := first
    cases result with
    | error problem => exact fun failed => nomatch failed
    | ok outcome =>
      dsimp only
      generalize run.sequential total rest after = ended
      obtain ⟨outcome, last⟩ := ended
      cases outcome with
      | error problem => exact fun failed => nomatch failed
      | ok report => exact fun _ rests => rests rfl

private theorem each_eq (run : Run) (commands : List ShaderCommand) (first : Nat)
    (state : BuildState) : run.each (commands.zipIdx first) state =
      (((run.worked commands state).1.zipIdx first).map Prod.swap,
        (run.worked commands state).2) := by
  induction commands generalizing first state with
  | nil => rfl
  | cons command rest ih => simp [each, worked, ih]

theorem lookup_of_mem {finished : List (Nat × CommandResult)} {place : Nat} {result : CommandResult}
    (once : (finished.map Prod.fst).Nodup) (came : (place, result) ∈ finished) :
    finished.lookup place = some result := by
  induction finished with
  | nil => cases came
  | cons arrival rest ih =>
    obtain ⟨fresh, onceToo⟩ := List.nodup_cons.mp once
    rw [List.lookup_cons]
    cases came with
    | head => simp
    | tail _ later =>
      have apart : (place == arrival.1) = false := by
        rw [beq_eq_false_iff_ne]
        exact fun same => fresh (List.mem_map.mpr ⟨_, later, same⟩)
      rw [apart]
      exact ih onceToo later

theorem collectResults_eq {finished : List (Nat × CommandResult)} {results : List CommandResult}
    (whole : results.length = commands.length)
    (all : ∀ index (within : index < results.length),
      finished.lookup index = some results[index]) :
    collectResults commands finished = allFailures commands.length (commands.zip results) := by
  have same : (commands.zipIdx.map fun entry =>
      (entry.1, resultAt finished entry.2 entry.1)) = commands.zip results := by
    refine List.ext_getElem (by simp [whole]) fun index within _ => ?_
    have inside : index < commands.length := by simpa using within
    simp [resultAt, all index (whole ▸ inside)]
  exact congrArg (allFailures commands.length) same

theorem nodup_of_perm {finished : List (Nat × CommandResult)} {results : List CommandResult}
    (order : finished.Perm (results.zipIdx.map Prod.swap)) :
    (finished.map Prod.fst).Nodup := by
  have places : (results.zipIdx.map Prod.swap).map Prod.fst = List.range' 0 results.length := by
    rw [List.map_map]
    exact List.zipIdx_map_snd 0 results
  rw [(order.map Prod.fst).nodup_iff, places]
  exact List.nodup_range'

theorem collectResults_of_perm {finished : List (Nat × CommandResult)}
    {results : List CommandResult} (whole : results.length = commands.length)
    (order : finished.Perm (results.zipIdx.map Prod.swap)) :
    collectResults commands finished =
      allFailures commands.length (commands.zip results) := by
  refine collectResults_eq whole fun index within => ?_
  refine lookup_of_mem (nodup_of_perm order) (order.mem_iff.mpr ?_)
  exact List.mem_map.mpr ⟨(results[index], index), List.mk_mem_zipIdx_iff_getElem?.mpr
    (List.getElem?_eq_getElem within), rfl⟩

theorem parallel_eq (run : Run) (commands : List ShaderCommand) (state : BuildState) :
    run.parallel commands state =
      (allFailures commands.length (commands.zip (run.worked commands state).1),
        (run.worked commands state).2) := by
  rw [parallel, each_eq]
  dsimp only
  rw [collectResults_of_perm (length_worked run commands state) (List.Perm.refl _)]

private theorem process_next (orderly : (run.team commands begun).Orderly)
    {front rest : List ShaderCommand} {command : ShaderCommand}
    (whole : commands = front ++ command :: rest)
    (reaches : (run.team commands begun).Reaches phases state)
    (waits : ∀ worker, front.length ≤ worker.val → phases worker = .lookup) :
    ((run.task command).process run.tools state).1 = run.alone begun command ∧
      ∃ later, (run.team commands begun).Reaches later
          ((run.task command).process run.tools state).2 ∧
        ∀ worker, (front ++ [command]).length ≤ worker.val → later worker = .lookup := by
  have within : front.length < commands.length := by simp [whole]
  have own : (run.team commands begun).tasks ⟨front.length, within⟩ = run.task command :=
    congrArg run.task (by simp [whole])
  have next := reaches.process (waits ⟨front.length, within⟩ (Nat.le_refl _))
  have ends := (Team.process_of_reaches orderly next (Function.update_self ..)).1
  rw [own] at next ends
  refine ⟨ends, _, next, ?_⟩
  rw [List.length_append, List.length_singleton]
  exact Team.waits_next within waits _

private theorem worked_of_reaches (orderly : (run.team commands begun).Orderly)
    (front rest : List ShaderCommand) (whole : commands = front ++ rest)
    (reaches : (run.team commands begun).Reaches phases state)
    (waits : ∀ worker, front.length ≤ worker.val → phases worker = .lookup) :
    rest.zip (run.worked rest state).1 = run.results begun rest := by
  induction rest generalizing front phases state with
  | nil => rfl
  | cons command rest ih =>
    obtain ⟨ends, later, next, waitsToo⟩ := process_next orderly whole reaches waits
    have rests := ih (front ++ [command]) (by simp [whole]) next waitsToo
    rw [worked]
    dsimp only
    rw [List.zip_cons_cons, rests, ends]
    rfl

/-- Side by side in any interleaving, or one after the other, independent commands come to what each
comes to alone: the same results, the same contents of the artifacts, the same known dependencies.
So the reports are the same, and where commands fail the first failure is. -/
theorem concord_of_reaches (noFile : begun.fileLevel = none)
    (confined : (run.team commands begun).Confined)
    (deterministic : (run.team commands begun).Deterministic)
    (independent : (run.team commands begun).Independent)
    (unmoved : (run.team commands begun).Unmoved)
    (reaches : (run.team commands begun).Reaches phases state) :
    (∀ worker result, phases worker = .finished result →
      let alone := (run.task commands[worker]).process run.tools begun
      result = alone.1 ∧
      (∀ artifact ∈ (run.task commands[worker]).artifacts.all,
        (state.world.files.file? artifact).map File.contents =
          (alone.2.world.files.file? artifact).map File.contents) ∧
      state.cache.find? (run.task commands[worker]).key =
        alone.2.cache.find? (run.task commands[worker]).key) ∧
    (∀ finished : List (Nat × CommandResult),
      (∀ worker, ∃ result, phases worker = .finished result ∧
        finished.lookup worker.val = some result) →
      run.Concord begun commands (run.sequential commands.length commands begun).1
        (collectResults commands finished)) ∧
    run.Concord begun commands (run.sequential commands.length commands begun).1
      (run.parallel commands begun).1 := by
  have orderly : (run.team commands begun).Orderly :=
    ⟨noFile, fun _ state comes => ⟨state, comes⟩, confined, deterministic, independent, unmoved⟩
  have ends : ∀ worker result, phases worker = .finished result → _ := fun worker result ended =>
    Team.process_of_reaches orderly reaches ended
  have alone : commands.zip (run.worked commands begun).1 = run.results begun commands :=
    worked_of_reaches orderly [] commands rfl .start fun _ _ => rfl
  rw [sequential_eq, parallel_eq, alone]
  refine ⟨ends, fun finished all => ?_, concord_results begun commands⟩
  have listed : commands.zip (commands.map (run.alone begun)) = run.results begun commands := by
    simpa [results] using @List.zip_map' _ _ _ id (run.alone begun) commands
  rw [collectResults_eq (List.length_map _) fun index within => ?_, listed]
  · exact concord_results begun commands
  · rw [List.length_map] at within
    obtain ⟨result, ended, found⟩ := all ⟨index, within⟩
    rw [List.getElem_map]
    exact found.trans (congrArg some (ends _ result ended).1)

end Run

namespace Task

variable {task : Task}

/-- The paths that a command uses which finds no others than these. -/
def used (task : Task) (found : List Path) : List Path :=
  found ++ (task.artifacts.all ++ task.directories ++
    ToolStage.all.map fun stage => (task.launchOf stage).program)

theorem mem_used {files : FileSystem} {phase : Phase} {path : Path} {found : List Path}
    (finds : task.Finds files phase path → path ∈ found) (uses : task.Uses files phase path) :
    path ∈ task.used found := by
  unfold used
  cases uses with
  | finds is => exact List.mem_append_left _ (finds is)
  | directory member => simp [member]
  | program stage =>
    have listed : stage ∈ ToolStage.all := by cases stage <;> simp [ToolStage.all]
    exact List.mem_append_right _ (List.mem_append_right _
      (List.mem_map.mpr ⟨stage, listed, rfl⟩))
  | artifact member => simp [member]

end Task

/-- No way of the paths comes to a halt at one of the locations. -/
def FileSystem.clear (files : FileSystem) (paths : List Path) (locations : List Location) : Bool :=
  paths.all fun path => [Aim.node, .target, .creation].all fun aim =>
    match files.halt aim path with
    | .site location _ => !locations.contains location
    | .settled _ => true

theorem FileSystem.not_mem_of_clear {files : FileSystem} {paths : List Path} {path : Path}
    {locations : List Location} {location : Location}
    (clear : files.clear paths locations = true) (member : path ∈ paths)
    (stops : files.Stops path location) : location ∉ locations := by
  obtain ⟨aim, ends, halts⟩ := stops
  have listed : aim ∈ [Aim.node, .target, .creation] := by cases aim <;> simp
  have free := List.all_eq_true.mp (List.all_eq_true.mp clear path member) aim listed
  simpa [halts] using free

namespace Run

/-- Two templates, their headers and the programs. -/
def pairFiles (second : Contents) : FileSystem where
  entries :=
    let headers := ["libraries".toList, "shaders".toList, "headers".toList]
    let file (contents : Contents) : Node := .file ⟨contents, 5, true, false⟩
    let empty := file (.text [])
    [(["a.slv".toList], empty), (["b.slv".toList], file second),
      (headers.take 1, .directory), (headers.take 2, .directory), (headers, .directory),
      (headers ++ ["410".toList], .directory),
      (headers ++ ["410".toList, "header.glsl".toList], empty),
      (headers ++ ["mono.glsl".toList], empty), (["tools".toList], .directory),
      (["tools".toList, "glslangValidator".toList], empty),
      (["tools".toList, "spirv-opt".toList], empty),
      (["tools".toList, "spirv-cross".toList], empty)]
  workingLocation := []
  workingDirectory := Path.of "/"

/-- With the directory for the artifacts. -/
def pairLaid (second : Contents) : FileSystem :=
  (pairFiles second).put ["out".toList] .directory

def pairState (second : Contents) : BuildState :=
  ⟨⟨pairFiles second, fun tick => tick + 10, 0⟩, .empty, [], [], none⟩

def pairRun : Run :=
  ⟨RunSettings.ofPlaces (Path.of "/list") (Path.of "/tools") (Path.of "/build") (Path.of "/"),
    writingTools⟩

/-- The command `410;mono;a.slv;out/a`. -/
def firstCommand : ShaderCommand :=
  ⟨"410".toList, .mono, Path.of "a.slv", Path.of "out/a", []⟩

/-- The same for another template and `out/b`. -/
def secondCommand (source : Path) : ShaderCommand :=
  ⟨"410".toList, .mono, source, Path.of "out/b", []⟩

def pairTeam (source : Path) (second : Contents) : Team (Fin 2) :=
  pairRun.team [firstCommand, secondCommand source] (pairState second)

variable {source : Path} {second : Contents}

private theorem parent_pair (worker : Fin 2) :
    ((pairTeam source second).tasks worker).outputBase.parent? = some (Path.of "/out") := by
  match worker with
  | 0 =>
    change (pairRun.task firstCommand).outputBase.parent? = _
    cbv
  | 1 =>
    change (pairRun.task (secondCommand source)).outputBase.parent? = _
    cbv

private theorem directories_pair (worker : Fin 2) :
    ((pairTeam source second).tasks worker).directories = [Path.of "/out", Path.of "/"] := by
  have above : (Path.of "/out").parents = [Path.of "/"] := by cbv
  rw [Task.directories, parent_pair]
  exact congrArg _ above

private theorem laid_pair {laid : FileSystem} (is : (pairTeam source second).Laid laid) :
    laid = pairFiles second ∨ laid = pairLaid second := by
  induction is with
  | start => exact .inl rfl
  | @make laid made worker path earlier maker wanted done ih =>
    rw [directories_pair] at wanted
    have out : (pairFiles second).makeDirectory (Path.of "/out") = .ok (pairLaid second) := by cbv
    have outToo : (pairLaid second).makeDirectory (Path.of "/out") = .error .alreadyExists := by cbv
    have root : (pairFiles second).makeDirectory (Path.of "/") = .error .alreadyExists := by cbv
    have rootToo : (pairLaid second).makeDirectory (Path.of "/") = .error .alreadyExists := by cbv
    simp only [List.mem_cons, List.not_mem_nil, or_false] at wanted
    rcases wanted with rfl | rfl <;> rcases ih with rfl | rfl
    · exact .inr (Except.ok.inj (done.symm.trans out))
    · cases done.symm.trans outToo
    · cases done.symm.trans root
    · cases done.symm.trans rootToo

private theorem owned_pair {worker : Fin 2} {location : Location}
    (owned : (pairTeam source second).Owned worker location) :
    location ∈ ((pairTeam source second).tasks worker).artifacts.all.filterMap
      (pairLaid second).outlet? := by
  obtain ⟨laid, is, artifact, member, leads⟩ := owned
  rcases laid_pair is with rfl | rfl
  · have none : ((pairTeam source second).tasks worker).artifacts.all.map
        (pairFiles second).outlet? = [none, none, none, none, none] := by
      match worker with
      | 0 =>
        change (pairRun.task firstCommand).artifacts.all.map _ = _
        cbv
      | 1 =>
        change (pairRun.task (secondCommand source)).artifacts.all.map _ = _
        cbv
    have listed := List.mem_map.mpr ⟨artifact, member, leads⟩
    rw [none] at listed
    simp at listed
  · exact List.mem_filterMap.mpr ⟨artifact, member, leads⟩

/-- What the first command finds. -/
def firstFound : List Path :=
  [Path.of "/a.slv", Path.of "/libraries/shaders/headers/410/header.glsl",
    Path.of "/libraries/shaders/headers/mono.glsl"]

private theorem finds_first {phase : Phase} {state : BuildState} {path : Path}
    (comes : (pairTeam source second).Alone 0 phase state)
    (finds : (pairRun.task firstCommand).Finds state.world.files phase path) :
    path ∈ firstFound := by
  have read : (pairFiles second).readText (pairRun.task firstCommand).source = .ok [] := by cbv
  have prepared : (pairRun.task firstCommand).prepared (pairFiles second) = pairLaid second := by cbv
  have readToo : (pairLaid second).readText (pairRun.task firstCommand).source = .ok [] := by cbv
  have listed := Task.finds_of_empty comes rfl rfl read (prepared ▸ readToo) finds
  have known : ((pairRun.task firstCommand).source :: ((pairRun.task firstCommand).headers ++
      (PathSet.empty.withSource (pairFiles second) (pairRun.task firstCommand).source
        (pairRun.task firstCommand).headers).paths)).all firstFound.contains = true := by cbv
  simpa using List.all_eq_true.mp known path listed

private theorem independent_pair {found : List Path}
    (keys : (pairRun.task firstCommand).key.same (pairRun.task (secondCommand source)).key = false)
    (finds : ∀ phase state, (pairTeam source second).Alone 1 phase state →
      ∀ path, (pairRun.task (secondCommand source)).Finds state.world.files phase path →
        path ∈ found)
    (clear : ∀ laid ∈ [pairFiles second, pairLaid second],
      laid.clear ((pairRun.task firstCommand).used firstFound)
          ((pairRun.task (secondCommand source)).artifacts.all.filterMap
            (pairLaid second).outlet?) = true ∧
        laid.clear ((pairRun.task (secondCommand source)).used found)
          ((pairRun.task firstCommand).artifacts.all.filterMap (pairLaid second).outlet?) = true) :
    (pairTeam source second).Independent := by
  have laids {laid : FileSystem} (is : (pairTeam source second).Laid laid) :
      laid ∈ [pairFiles second, pairLaid second] := by
    simpa using laid_pair is
  have first : (pairTeam source second).tasks 0 = pairRun.task firstCommand := rfl
  have other : (pairTeam source second).tasks 1 = pairRun.task (secondCommand source) := rfl
  constructor
  · refine Fin.forall_fin_two.mpr ⟨Fin.forall_fin_two.mpr ⟨fun same => absurd rfl same, fun _ => ?_⟩,
      Fin.forall_fin_two.mpr ⟨fun _ => ?_, fun same => absurd rfl same⟩⟩
    · exact keys
    · rw [first, other, Bool.eq_false_iff]
      intro same
      rw [DependencyKey.same_iff.mpr (DependencyKey.same_iff.mp same).symm] at keys
      cases keys
  · refine Fin.forall_fin_two.mpr ⟨Fin.forall_fin_two.mpr ⟨fun same => absurd rfl same, fun _ => ?_⟩,
      Fin.forall_fin_two.mpr ⟨fun _ => ?_, fun same => absurd rfl same⟩⟩
    · intro phase state comes path uses laid is location stops owned
      have listed := owned_pair owned
      rw [other] at listed
      rw [first] at uses
      exact FileSystem.not_mem_of_clear (clear laid (laids is)).1
        (Task.mem_used (finds_first comes) uses) stops listed
    · intro phase state comes path uses laid is location stops owned
      have listed := owned_pair owned
      rw [first] at listed
      rw [other] at uses
      exact FileSystem.not_mem_of_clear (clear laid (laids is)).2
        (Task.mem_used (finds phase state comes path) uses) stops listed

private theorem prepared_pair (worker : Fin 2) {laid : FileSystem}
    (is : (pairTeam source second).Laid laid) :
    ((pairTeam source second).tasks worker).prepared laid = pairLaid second := by
  have made : ((pairFiles second).makeDirectories (Path.of "/out")).2 = pairLaid second := by cbv
  have stays : ((pairLaid second).makeDirectories (Path.of "/out")).2 = pairLaid second := by cbv
  unfold Task.prepared
  rw [parent_pair]
  rcases laid_pair is with rfl | rfl
  · exact made
  · exact stays

private theorem unmoved_pair {found : List Path}
    (finds : ∀ phase state, (pairTeam source second).Alone 1 phase state →
      ∀ path, (pairRun.task (secondCommand source)).Finds state.world.files phase path →
        path ∈ found)
    (same : (firstFound ++ found).map (pairFiles second).locateFile =
      (firstFound ++ found).map (pairLaid second).locateFile) :
    (pairTeam source second).Unmoved := by
  have alike {path : Path} (member : path ∈ firstFound ++ found) {laid now : FileSystem}
      (is : laid = pairFiles second ∨ laid = pairLaid second)
      (isToo : now = pairFiles second ∨ now = pairLaid second) :
      laid.locateFile path = now.locateFile path := by
    have equal := List.map_inj_left.mp same path member
    rcases is with rfl | rfl <;> rcases isToo with rfl | rfl
    · rfl
    · exact equal
    · exact equal.symm
    · rfl
  constructor
  · intro worker phase state comes path looks laid is
    have untouched := (Task.untouched_of_comes comes rfl).2
    have now : state.world.files = pairFiles second ∨ state.world.files = pairLaid second := by
      have begun : (pairTeam source second).Laid (pairFiles second) := .start
      cases looks with
      | discover | judge => exact .inl untouched
      | rediscover | expand => exact .inr (untouched.trans (prepared_pair worker begun))
    refine alike ?_ (laid_pair is) now
    match worker with
    | 0 => exact List.mem_append_left _ (finds_first comes looks)
    | 1 => exact List.mem_append_right _ (finds phase state comes path looks)
  · have artifacts (worker : Fin 2) :
        ((pairTeam source second).tasks worker).artifacts.all.map (pairFiles second).file? =
          ((pairTeam source second).tasks worker).artifacts.all.map (pairLaid second).file? := by
      match worker with
      | 0 =>
        change (pairRun.task firstCommand).artifacts.all.map _ =
          (pairRun.task firstCommand).artifacts.all.map _
        cbv
      | 1 =>
        change (pairRun.task (secondCommand source)).artifacts.all.map _ =
          (pairRun.task (secondCommand source)).artifacts.all.map _
        cbv
    intro worker artifact member laid is
    rcases laid_pair is with rfl | rfl
    · rfl
    · exact (List.map_inj_left.mp (artifacts worker) artifact member).symm
  · intro worker state comes parent top laid is
    obtain rfl := Option.some.inj ((parent_pair worker).symm.trans top)
    have made : ((pairFiles second).makeDirectories (Path.of "/out")).1 = .ok () := by cbv
    have stays : ((pairLaid second).makeDirectories (Path.of "/out")).1 = .ok () := by cbv
    rcases laid_pair is with rfl | rfl
    · rfl
    · exact stays.trans made.symm
  · intro worker phase state comes path places laid is aim
    rw [prepared_pair worker is, prepared_pair worker .start]

private theorem confined_pair : (pairTeam source second).Confined :=
  fun _ => Task.confined_writing

private theorem deterministic_pair : (pairTeam source second).Deterministic :=
  fun _ => Task.deterministic_writing

/-- Two templates without text whose artifacts go to one directory, which is not there yet: the
second command ends after the first as it does alone, and the reports agree. -/
theorem concord_of_reaches_pair :
    let commands := [firstCommand, secondCommand (Path.of "b.slv")]
    let begun := pairState (.text [])
    let after := ((pairRun.task firstCommand).process pairRun.tools begun).2
    ((pairRun.task (secondCommand (Path.of "b.slv"))).process pairRun.tools after).1 =
        pairRun.alone begun (secondCommand (Path.of "b.slv")) ∧
      pairRun.Concord begun commands (pairRun.sequential 2 commands begun).1
        (pairRun.parallel commands begun).1 := by
  have read : (pairFiles (.text [])).readText
      (pairRun.task (secondCommand (Path.of "b.slv"))).source = .ok [] := by cbv
  have prepared : (pairRun.task (secondCommand (Path.of "b.slv"))).prepared (pairFiles (.text [])) =
      pairLaid (.text []) := by cbv
  have readToo : (pairLaid (.text [])).readText
      (pairRun.task (secondCommand (Path.of "b.slv"))).source = .ok [] := by cbv
  have independent : (pairTeam (Path.of "b.slv") (.text [])).Independent := by
    refine independent_pair (by cbv) (fun phase state comes path finds =>
      Task.finds_of_empty comes rfl rfl read (prepared ▸ readToo) finds) ?_
    simp only [List.forall_mem_cons]
    refine ⟨⟨by cbv, by cbv⟩, ⟨by cbv, by cbv⟩, by simp⟩
  have unmoved : (pairTeam (Path.of "b.slv") (.text [])).Unmoved :=
    unmoved_pair (fun phase state comes path finds =>
      Task.finds_of_empty comes rfl rfl read (prepared ▸ readToo) finds) (by cbv)
  have first := @Team.Reaches.process _ (pairTeam (Path.of "b.slv") (.text [])) 0 _ _ _ .start rfl
  have reaches := @Team.Reaches.process _ _ 1 _ _ _ first rfl
  have holds := concord_of_reaches rfl confined_pair deterministic_pair independent unmoved reaches
  exact ⟨(holds.1 1 _ rfl).1, holds.2.2⟩

/-- The way of the second template leads through the directory for the artifacts. -/
def upward : Path :=
  Path.of "out/../b.slv"

private theorem unreadable {problem : FileError} {files : FileSystem}
    (read : files.readText (pairRun.task (secondCommand upward)).source = .error problem) :
    (pairRun.task (secondCommand upward)).discovered files =
      .error (.unreadable (pairRun.task (secondCommand upward)).source problem) := by
  rw [Task.discovered, value_discover, read]
  rfl

/-- No artifact of one command is in the way of the other, but a directory is: without it the second
template is not found, and once the first command has made it the second fails in another way. -/
theorem alone_ne_of_reaches_upward :
    let begun := pairState (.binary [255])
    let team := pairRun.team [firstCommand, secondCommand upward] begun
    team.Confined ∧ team.Deterministic ∧ team.Independent ∧
      ∃ phases state result, team.Reaches phases state ∧ phases 1 = .finished result ∧
        result ≠ pairRun.alone begun (secondCommand upward) := by
  have missing : (pairFiles (.binary [255])).readText
      (pairRun.task (secondCommand upward)).source = .error .notFound := by cbv
  have broken : (pairLaid (.binary [255])).readText
      (pairRun.task (secondCommand upward)).source = .error .notUtf8 := by cbv
  have independent : (pairTeam upward (.binary [255])).Independent := by
    refine @independent_pair _ _ [(pairRun.task (secondCommand upward)).source] (by cbv)
      (fun phase state comes path finds =>
        List.mem_singleton.mpr (Task.finds_of_unreadable comes rfl rfl missing finds)) ?_
    simp only [List.forall_mem_cons]
    refine ⟨⟨by cbv, by cbv⟩, ⟨by cbv, by cbv⟩, by simp⟩
  have alone : pairRun.alone (pairState (.binary [255])) (secondCommand upward) =
      .error (.expansion (.unreadable (pairRun.task (secondCommand upward)).source .notFound)) :=
    (@Task.Moves.complete _ _ .lookup (pairState (.binary [255])) _ _
      (.step (.miss rfl) (.step (.undiscovered (unreadable missing)) (.done _ _))) rfl).1
  -- The first command goes on until its directory is made, then the second to its end.
  have read : (pairFiles (.binary [255])).readText (pairRun.task firstCommand).source = .ok [] := by
    cbv
  have stale : (pairRun.task firstCommand).isStale (pairFiles (.binary [255]))
      (PathSet.empty.withSource (pairFiles (.binary [255])) (pairRun.task firstCommand).source
        (pairRun.task firstCommand).headers) = true := by cbv
  have made : ∀ parent, (pairRun.task firstCommand).outputBase.parent? = some parent →
      ((pairFiles (.binary [255])).makeDirectories parent).1 = .ok () := by
    intro parent top
    have out : (pairRun.task firstCommand).outputBase.parent? = some (Path.of "/out") := by cbv
    obtain rfl := Option.some.inj (out.symm.trans top)
    cbv
  have begins : (pairTeam upward (.binary [255])).Reaches
      (Function.update (fun _ => .lookup) 0 .lookup) (pairState (.binary [255])) := by
    rw [Function.update_eq_self]
    exact .start
  obtain ⟨_, looked, quiet⟩ := begins.move rfl rfl (.miss rfl)
  obtain ⟨_, searched, quiet⟩ := looked.move quiet rfl (.discovered (Task.discovered_empty read))
  obtain ⟨_, stored, quiet⟩ := searched.move quiet rfl (.store _)
  obtain ⟨_, judged, quiet⟩ := stored.move quiet rfl (.rebuild stale rfl)
  obtain ⟨_, laid, quiet⟩ := judged.move quiet rfl (.prepared made)
  have waits : Function.update (fun _ => Phase.lookup) (0 : Fin 2) .rediscover =
      Function.update (Function.update (fun _ => Phase.lookup) 0 .rediscover) 1 .lookup :=
    funext (Fin.forall_fin_two.mpr ⟨rfl, rfl⟩)
  have there : (pairRun.task firstCommand).prepared (pairFiles (.binary [255])) =
      pairLaid (.binary [255]) := by cbv
  rw [waits] at laid
  obtain ⟨_, missed, quiet⟩ := laid.move quiet rfl (.miss (by cbv))
  obtain ⟨_, failed, quiet⟩ := missed.move quiet rfl (.undiscovered (unreadable (there ▸ broken)))
  refine ⟨confined_pair, deterministic_pair, independent, _, _, _, failed,
    Function.update_self .., ?_⟩
  rw [alone]
  simp

end Run

end ShaderBuild
