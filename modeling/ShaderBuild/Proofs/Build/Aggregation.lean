import ShaderBuild.Proofs.Build.Endings
/-!
How the results of the commands become the result of a run. Workers come to an end in any order; each
result is put in the place of its command, and what the run gives is determined by the results in the
order of the list.
-/
namespace ShaderBuild

open ShaderBuild.Task (Phase)

/-- The commands that failed, in the order of the list, each with its message. -/
def failedCommands (commands : List ShaderCommand) (results : List CommandResult) :
    List FailedCommand :=
  (commands.zip results).filterMap fun
    | (_, .ok _) => none
    | (command, .error problem) => some ⟨command.describe, problem.message⟩

/-- What a run gives whose commands come to these results. -/
inductive Aggregates (commands : List ShaderCommand) :
    List CommandResult → Except BuildFailure RunReport → Prop where
  | report (outcomes : List Outcome) :
      Aggregates commands (outcomes.map .ok) (.ok ⟨commands.zip outcomes⟩)
  | failures {results : List CommandResult} {problem : BuildFailure}
      (failed : .error problem ∈ results) :
      Aggregates commands results
        (.error (.commandsFailed commands.length (failedCommands commands results)))

/-- A place for each command, and its result in it once that has come. -/
abbrev Board := List (Option CommandResult)

namespace Board

def blank (commands : List ShaderCommand) : Board :=
  commands.map fun _ => none

def arrive (board : Board) (arrival : Nat × CommandResult) : Board :=
  board.set arrival.1 (some arrival.2)

/-- The results of the commands; one without a result was abandoned. -/
def results (commands : List ShaderCommand) (board : Board) : List (ShaderCommand × CommandResult) :=
  (commands.zip board).map fun entry =>
    (entry.1, entry.2.getD (.error (.abandoned entry.1.describe "task was cancelled")))

end Board

variable {commands : List ShaderCommand} {results : List CommandResult}
  {finished : List (Nat × CommandResult)} {answer other : Except BuildFailure RunReport}

/-- The results determine what a run gives. -/
theorem Aggregates.unique (one : Aggregates commands results answer)
    (two : Aggregates commands results other) : other = answer := by
  have apart {outcomes : List Outcome} {problem : BuildFailure} :
      (.error problem : CommandResult) ∉ outcomes.map .ok := by simp
  generalize same : results = again at two
  cases one with
  | report outcomes =>
    cases two with
    | report others =>
      have equal : outcomes = others :=
        List.map_injective_iff.mpr (fun _ _ => Except.ok.inj) same
      rw [equal]
    | failures failed => exact absurd (same ▸ failed) apart
  | failures failed =>
    subst same
    cases two with
    | report => exact absurd failed apart
    | failures => rfl

private theorem partitionResults_failed (commands : List ShaderCommand)
    (results : List CommandResult) :
    (partitionResults (commands.zip results)).2 = failedCommands commands results := by
  induction commands generalizing results with
  | nil => rfl
  | cons command commands ih =>
    cases results with
    | nil => rfl
    | cons result results =>
      rw [List.zip_cons_cons, partitionResults, failedCommands, List.zip_cons_cons,
        List.filterMap_cons]
      cases result with
      | ok outcome => exact ih results
      | error problem => exact congrArg (FailedCommand.of command problem :: ·) (ih results)

theorem failedCommands_ne_nil (whole : results.length = commands.length) {problem : BuildFailure}
    (failed : .error problem ∈ results) : failedCommands commands results ≠ [] := by
  obtain ⟨index, within, found⟩ := List.mem_iff_getElem.mp failed
  have place : (commands[index], .error problem) ∈ commands.zip results := by
    rw [List.mem_iff_getElem]
    exact ⟨index, by simp; omega, by rw [List.getElem_zip, found]⟩
  intro none
  have listed := List.filterMap_eq_nil_iff.mp none _ place
  cases listed

/-- A report, or all failures, is what a run gives. -/
theorem aggregates_allFailures (whole : results.length = commands.length) :
    Aggregates commands results
      (Run.allFailures commands.length (commands.zip results)) := by
  by_cases failed : ∃ problem, .error problem ∈ results
  · obtain ⟨problem, failed⟩ := failed
    have listed := partitionResults_failed commands results
    have some := failedCommands_ne_nil whole failed
    unfold Run.allFailures
    split
    · rename_i done parted
      rw [parted] at listed
      exact absurd listed.symm some
    · rename_i done failures _ parted
      rw [parted] at listed
      obtain rfl : failures = failedCommands commands results := listed
      exact .failures failed
  · obtain ⟨outcomes, rfl⟩ : results ∈ Set.range (List.map Except.ok) := by
      rw [Set.range_list_map]
      intro result member
      cases result with
      | ok outcome => exact ⟨outcome, rfl⟩
      | error problem => exact absurd ⟨problem, member⟩ failed
    rw [Run.allFailures_eq_ok.mpr (List.zip_map_right ..)]
    exact .report outcomes

theorem Board.getElem?_arrive (board : Board) (arrival : Nat × CommandResult) (index : Nat)
    (within : index < board.length) : (board.arrive arrival)[index]? =
      if arrival.1 = index then some (some arrival.2) else board[index]? := by
  rw [Board.arrive, List.getElem?_set]
  split
  · rename_i same
    rw [if_pos (same ▸ within)]
  · rfl

theorem Board.getElem?_foldl (board : Board) (once : (finished.map Prod.fst).Nodup) (index : Nat)
    (within : index < board.length) : (finished.foldl Board.arrive board)[index]? =
      match finished.lookup index with
      | some result => some (some result)
      | none => board[index]? := by
  induction finished generalizing board with
  | nil => rfl
  | cons arrival rest ih =>
    obtain ⟨place, result⟩ := arrival
    obtain ⟨fresh, onceToo⟩ := List.nodup_cons.mp once
    have onward := ih (board.arrive (place, result)) onceToo (by simpa [Board.arrive] using within)
    rw [List.foldl_cons, onward, List.lookup_cons, board.getElem?_arrive _ _ within]
    by_cases same : place = index
    · subst same
      have later : rest.lookup place = none := by
        rw [List.lookup_eq_none_iff]
        exact fun arrival member => bne_iff_ne.mpr fun same =>
          fresh (List.mem_map.mpr ⟨arrival, member, same.symm⟩)
      simp [later]
    · have apart : (index == place) = false := beq_false_of_ne (Ne.symm same)
      simp [apart, same]

theorem Board.length_foldl (board : Board) (finished : List (Nat × CommandResult)) :
    (finished.foldl Board.arrive board).length = board.length := by
  induction finished generalizing board with
  | nil => rfl
  | cons arrival rest ih => rw [List.foldl_cons, ih, Board.arrive, List.length_set]

/-- To put each result in its place as it comes gives what a look at all of them gives. -/
theorem collectResults_eq_board (once : (finished.map Prod.fst).Nodup) :
    collectResults commands finished = Run.allFailures commands.length
      (Board.results commands (finished.foldl Board.arrive (Board.blank commands))) := by
  have size : (finished.foldl Board.arrive (Board.blank commands)).length = commands.length := by
    rw [Board.length_foldl, Board.blank, List.length_map]
  have same : (commands.zipIdx.map fun entry =>
      (entry.1, resultAt finished entry.2 entry.1)) =
        Board.results commands (finished.foldl Board.arrive (Board.blank commands)) := by
    refine List.ext_getElem (by simp [Board.results, size]) fun index within _ => ?_
    have inside : index < commands.length := by simpa using within
    have filled := Board.getElem?_foldl (Board.blank commands) once index
      (by simpa [Board.blank] using inside)
    rw [List.getElem?_eq_getElem (size ▸ inside)] at filled
    simp only [Board.results, resultAt, List.getElem_map, List.getElem_zip, List.getElem_zipIdx,
      Nat.zero_add]
    cases came : finished.lookup index with
    | none =>
      rw [came] at filled
      have empty : (finished.foldl Board.arrive (Board.blank commands))[index] = none := by
        simpa [Board.blank, inside] using filled
      rw [empty]
    | some result =>
      rw [came] at filled
      rw [Option.some.inj filled]
  exact congrArg (Run.allFailures commands.length) same

namespace Team

variable {count : Nat} {team : Team (Fin count)} {phases : Fin count → Phase} {state : BuildState}

/-- The workers take their steps in turns, and what a worker comes to is noted when it does. -/
inductive Collects (team : Team (Fin count)) :
    (Fin count → Phase) → BuildState → List (Nat × CommandResult) → Prop where
  | start : Collects team (fun _ => .lookup) team.begun []
  | step {phases : Fin count → Phase} {state : BuildState} {finished : List (Nat × CommandResult)}
      (earlier : Collects team phases state finished) (worker : Fin count)
      (running : (phases worker).result? = none) :
      Collects team
        (Function.update phases worker
          ((team.tasks worker).step team.tools (phases worker) state).1)
        ((team.tasks worker).step team.tools (phases worker) state).2
        (finished ++
          (((team.tasks worker).step team.tools (phases worker) state).1.result?.map
            (worker.val, ·)).toList)

/-- Noted is, once for each, what the workers have come to that have come to an end. -/
structure Tally (phases : Fin count → Phase) (finished : List (Nat × CommandResult)) : Prop where
  once : (finished.map Prod.fst).Nodup
  came : ∀ worker result, (worker.val, result) ∈ finished ↔ (phases worker).result? = some result
  within : ∀ arrival ∈ finished, arrival.1 < count

theorem Tally.step (tally : Tally phases finished) {worker : Fin count}
    (running : (phases worker).result? = none) (next : Phase) :
    Tally (Function.update phases worker next)
      (finished ++ (next.result?.map (worker.val, ·)).toList) := by
  have fresh : ∀ result, (worker.val, result) ∉ finished := by
    intro result member
    have ended := (tally.came worker result).mp member
    rw [running] at ended
    cases ended
  have came : ∀ other result,
      (other.val, result) ∈ finished ++ (next.result?.map (worker.val, ·)).toList ↔
        (Function.update phases worker next other).result? = some result := by
    intro other result
    by_cases same : other = worker
    · subst same
      rw [Function.update_self, List.mem_append, or_iff_right (fresh result)]
      cases next.result? <;> simp [eq_comm]
    · have apart : other.val ≠ worker.val := fun equal => same (Fin.ext equal)
      rw [Function.update_of_ne same, ← tally.came, List.mem_append, or_iff_left]
      cases next.result? <;> simp [apart]
  cases ended : next.result? with
  | none =>
    rw [ended] at came
    simp only [Option.map_none, Option.toList_none, List.append_nil] at came ⊢
    exact ⟨tally.once, came, tally.within⟩
  | some result =>
    rw [ended] at came
    refine ⟨?_, came, ?_⟩
    · have last : worker.val ∉ finished.map Prod.fst := by
        intro member
        obtain ⟨⟨place, result⟩, noted, rfl⟩ := List.mem_map.mp member
        exact fresh result noted
      simpa using tally.once.concat last
    · rw [List.forall_mem_append]
      exact ⟨tally.within, by simp⟩

theorem tally_of_collects (collects : team.Collects phases state finished) :
    Tally phases finished := by
  induction collects with
  | start => exact ⟨List.nodup_nil, by simp [Phase.result?], by simp⟩
  | step earlier worker running ih => exact ih.step running _

theorem Tally.perm (tally : Tally phases finished) (whole : results.length = count)
    (all : ∀ worker, (phases worker).result? = results[worker.val]?) :
    finished.Perm (results.zipIdx.map Prod.swap) := by
  have places : ((results.zipIdx.map Prod.swap).map Prod.fst).Nodup :=
    Run.nodup_of_perm (List.Perm.refl _)
  rw [List.perm_ext_iff_of_nodup tally.once.of_map places.of_map]
  rintro ⟨place, result⟩
  rw [List.mem_map_swap, List.mem_zipIdx_iff_getElem?]
  constructor
  · intro noted
    have within := tally.within _ noted
    exact (all ⟨place, within⟩) ▸ (tally.came ⟨place, within⟩ result).mp noted
  · intro listed
    obtain ⟨within, _⟩ := List.getElem?_eq_some_iff.mp listed
    exact (tally.came ⟨place, whole ▸ within⟩ result).mpr ((all _).trans listed)

end Team

namespace Run

/-- Whatever the order in which the results of the commands come, the run gives the same: if none
failed, a report with each command of the list and its own outcome, and otherwise all commands that
failed, in the order of the list and each with its own message. So do workers that take turns in any
way, and a single worker. -/
theorem aggregates_of_perm (whole : results.length = commands.length)
    (order : finished.Perm (results.zipIdx.map Prod.swap)) :
    (∀ answer, Aggregates commands results answer ↔ collectResults commands finished = answer) ∧
      allFailures commands.length
          (Board.results commands (finished.foldl Board.arrive (Board.blank commands))) =
        collectResults commands finished ∧
      ∀ (run : Run) (begun : BuildState),
        (∀ phases state came, (run.crew commands begun).Collects phases state came →
          (∀ worker : Fin commands.length, (phases worker).result? = results[worker.val]?) →
            collectResults commands came = collectResults commands finished) ∧
        ((run.worked commands begun).1 = results →
          (run.parallel commands begun).1 = collectResults commands finished) := by
  have collected := collectResults_of_perm whole order
  have gives : Aggregates commands results (collectResults commands finished) :=
    collected ▸ aggregates_allFailures whole
  refine ⟨fun answer => ⟨fun other => gives.unique other ▸ rfl, fun same => same ▸ gives⟩,
    (collectResults_eq_board (nodup_of_perm order)).symm,
    fun run begun => ⟨fun phases state came collects all => ?_, ?_⟩⟩
  · rw [collected]
    exact collectResults_of_perm whole ((Team.tally_of_collects collects).perm whole all)
  · rintro rfl
    rw [parallel_eq, collected]

/-- A command that is listed twice and one that fails between, whose results come in the opposite
order. -/
theorem aggregates_of_perm_reversed :
    let commands := [firstCommand, secondCommand (Path.of "b.slv"), firstCommand]
    let failure := BuildFailure.file (Path.of "b.slv") .notFound
    collectResults commands [(2, .ok .upToDate), (1, .ok .rebuilt), (0, .ok .rebuilt)] =
        .ok ⟨[(firstCommand, .rebuilt), (secondCommand (Path.of "b.slv"), .rebuilt),
          (firstCommand, .upToDate)]⟩ ∧
      collectResults commands [(2, .ok .upToDate), (1, .error failure), (0, .ok .rebuilt)] =
        .error (.commandsFailed 3
          [⟨(secondCommand (Path.of "b.slv")).describe, failure.message⟩]) := by
  intro commands failure
  have none := @aggregates_of_perm commands [.ok .rebuilt, .ok .rebuilt, .ok .upToDate]
    _ rfl (List.reverse_perm _)
  have one := @aggregates_of_perm commands [.ok .rebuilt, .error failure, .ok .upToDate]
    _ rfl (List.reverse_perm _)
  exact ⟨(none.1 _).mp (.report [.rebuilt, .rebuilt, .upToDate]),
    (one.1 _).mp (.failures (List.mem_cons_of_mem _ List.mem_cons_self))⟩

end Run

end ShaderBuild
