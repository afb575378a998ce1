import ShaderBuild.Proofs.Build.Provenance
/-!
How runs end in which no command fails. Both modes work on the commands in their order, which is one
of the interleavings, and both give a report exactly when no command fails and the dependencies are
saved.
-/
namespace ShaderBuild

open ShaderBuild.Task (Phase)

/-- What a report lists, as the results of the commands. -/
def RunReport.results (report : RunReport) : List (ShaderCommand × CommandResult) :=
  report.commands.map fun entry => (entry.1, .ok entry.2)

private theorem partitionResults_eq {results : List (ShaderCommand × CommandResult)}
    {done : List (ShaderCommand × Outcome)} :
    partitionResults results = (done, []) ↔ results = RunReport.results ⟨done⟩ := by
  induction results generalizing done with
  | nil => cases done <;> simp [partitionResults, RunReport.results]
  | cons entry rest ih =>
    obtain ⟨command, result⟩ := entry
    have rests := @ih
    rw [partitionResults]
    revert rests
    generalize partitionResults rest = parts
    obtain ⟨outcomes, failures⟩ := parts
    intro rests
    cases result with
    | error problem => cases done <;> simp [RunReport.results]
    | ok outcome =>
      cases done with
      | nil => simp [RunReport.results]
      | cons entry done =>
        have same := @rests done
        simp only [Prod.mk.injEq, RunReport.results] at same
        simp only [List.cons.injEq, RunReport.results, List.map_cons, and_assoc, Except.ok.injEq,
          same, Prod.ext_iff]

namespace Run

variable {run : Run} {commands rest : List ShaderCommand} {begun state middle final ended : BuildState}
  {report : RunReport}

theorem firstFailure_eq_ok {total : Nat} {results : List (ShaderCommand × CommandResult)} :
    firstFailure total results = .ok report ↔ results = report.results := by
  obtain ⟨listed⟩ := report
  rw [← partitionResults_eq, firstFailure]
  split <;> simp_all

theorem allFailures_eq_ok {total : Nat} {results : List (ShaderCommand × CommandResult)} :
    allFailures total results = .ok report ↔ results = report.results := by
  obtain ⟨listed⟩ := report
  rw [← partitionResults_eq, allFailures]
  split <;> simp_all

/-- The commands are worked on in the mode of the run. -/
def work (run : Run) (commands : List ShaderCommand) (state : BuildState) :
    Except BuildFailure RunReport × BuildState :=
  if run.settings.sequential then run.sequential commands.length commands state
  else run.parallel commands state

theorem work_eq_ok : run.work commands state = (.ok report, final) ↔
    commands.zip (run.worked commands state).1 = report.results ∧
      (run.worked commands state).2 = final := by
  unfold work
  split
  · rw [← firstFailure_eq_ok, ← sequential_eq]
    constructor
    · intro done
      have reported := congrArg Prod.fst done
      exact ⟨reported, (sequential_state reported).symm.trans (congrArg Prod.snd done)⟩
    · rintro ⟨reported, rfl⟩
      exact Prod.ext reported (sequential_state reported)
  · rw [parallel_eq, Prod.mk.injEq, allFailures_eq_ok]

private theorem reaches_worked {phases : Fin commands.length → Phase}
    (front rest back : List ShaderCommand) (whole : commands = front ++ rest ++ back)
    (reaches : (run.crew commands begun).Reaches phases state)
    (waits : ∀ worker, front.length ≤ worker.val → phases worker = .lookup) :
    ∃ later, (run.crew commands begun).Reaches later (run.worked rest state).2 ∧
      (∀ worker, worker.val < front.length → later worker = phases worker) ∧
      (∀ worker, front.length ≤ worker.val → worker.val < front.length + rest.length →
        ∃ result ∈ (run.worked rest state).1, later worker = .finished result) ∧
      ∀ result ∈ (run.worked rest state).1, ∃ worker, later worker = .finished result := by
  induction rest generalizing front phases state with
  | nil =>
    exact ⟨phases, reaches, fun _ _ => rfl, fun worker beyond within =>
      absurd within (Nat.not_lt.mpr beyond), nofun⟩
  | cons command rest ih =>
    -- The next command is worked on to its end, and the others from there on.
    have within : front.length < commands.length := by simp [whole]
    have own : (run.crew commands begun).tasks ⟨front.length, within⟩ = run.task command :=
      congrArg run.task (by simp [whole])
    have next := reaches.process (waits ⟨front.length, within⟩ (Nat.le_refl _))
    rw [own] at next
    have longer : (front ++ [command]).length = front.length + 1 := by simp
    obtain ⟨later, reachesToo, below, beyond, known⟩ := ih (front ++ [command]) (by simp [whole]) next
      (longer ▸ Team.waits_next within waits _)
    rw [longer] at below beyond
    have first : later ⟨front.length, within⟩ =
        .finished ((run.task command).process run.tools state).1 := by
      rw [below ⟨front.length, within⟩ (Nat.lt_succ_self _)]
      exact Function.update_self ..
    refine ⟨later, reachesToo, fun worker earlier => ?_, fun worker later inside => ?_, ?_⟩
    · rw [below worker (Nat.lt_succ_of_lt earlier), Function.update_of_ne]
      rintro rfl
      exact Nat.lt_irrefl _ earlier
    · rcases Nat.eq_or_lt_of_le later with same | after
      · obtain rfl : worker = ⟨front.length, within⟩ := Fin.ext same.symm
        exact ⟨_, List.mem_cons_self, first⟩
      · rw [List.length_cons] at inside
        obtain ⟨result, member, ended⟩ := beyond worker after (by omega)
        exact ⟨result, List.mem_cons_of_mem _ member, ended⟩
    · exact List.forall_mem_cons.mpr ⟨⟨_, first⟩, known⟩

theorem reaches_of_worked (run : Run) (commands : List ShaderCommand) (begun : BuildState) :
    ∃ phases, (run.crew commands begun).Reaches phases (run.worked commands begun).2 ∧
      (∀ worker, ∃ result ∈ (run.worked commands begun).1, phases worker = .finished result) ∧
      ∀ result ∈ (run.worked commands begun).1, ∃ worker, phases worker = .finished result := by
  obtain ⟨phases, reaches, _, all, known⟩ :=
    @reaches_worked run commands begun begun _ [] commands [] (by simp) .start fun _ _ => rfl
  exact ⟨phases, reaches, fun worker => all worker (Nat.zero_le _) (by simp), known⟩

private theorem sequential_front (run : Run) (total : Nat) (commands : List ShaderCommand)
    (state : BuildState) : ∃ front back, commands = front ++ back ∧
      (run.sequential total commands state).2 = (run.worked front state).2 := by
  induction commands generalizing state with
  | nil => exact ⟨[], [], rfl, rfl⟩
  | cons command rest ih =>
    have rests := ih ((run.task command).process run.tools state).2
    have alone : (run.worked [command] state).2 = ((run.task command).process run.tools state).2 := rfl
    rw [sequential]
    cases done : (run.task command).process run.tools state with
    | mk result after =>
      rw [done] at rests alone
      cases result with
      | error problem => exact ⟨[command], rest, rfl, alone.symm⟩
      | ok outcome =>
        obtain ⟨front, back, rfl, same⟩ := rests
        refine ⟨command :: front, back, rfl, ?_⟩
        rw [worked, done]
        dsimp only at same ⊢
        rw [← same]
        cases run.sequential total (front ++ back) after with
        | mk result last => cases result <;> rfl

/-- In both modes the work comes to a state of one of the interleavings, whether a command fails or
not, and a report lists what the commands came to in it. -/
theorem reaches_of_work (run : Run) (commands : List ShaderCommand) (begun : BuildState) :
    ∃ phases, (run.crew commands begun).Reaches phases (run.work commands begun).2 ∧
      ∀ report, (run.work commands begun).1 = .ok report → ∀ entry ∈ report.commands,
        ∃ worker, phases worker = .finished (.ok entry.2) := by
  cases given : (run.work commands begun).1 with
  | ok report =>
    obtain ⟨results, state⟩ :=
      (@work_eq_ok run commands begun (run.work commands begun).2 report).mp (Prod.ext given rfl)
    obtain ⟨phases, reaches, _, known⟩ := reaches_of_worked run commands begun
    rw [← state]
    refine ⟨phases, reaches, fun other same entry member => known _ ?_⟩
    obtain rfl := Except.ok.inj same
    have listed : (entry.1, .ok entry.2) ∈ commands.zip (run.worked commands begun).1 :=
      results ▸ List.mem_map_of_mem member
    exact (List.of_mem_zip listed).2
  | error problem =>
    suffices ∃ front back, commands = front ++ back ∧
        (run.work commands begun).2 = (run.worked front begun).2 by
      obtain ⟨front, back, whole, state⟩ := this
      obtain ⟨phases, reaches, _⟩ := @reaches_worked run commands begun begun _ [] front back whole
        .start fun _ _ => rfl
      exact ⟨phases, state ▸ reaches, nofun⟩
    unfold work
    split
    · exact sequential_front run _ commands begun
    · exact ⟨commands, [], (List.append_nil _).symm, by rw [parallel_eq]⟩

/-- A report lists results that came. -/
theorem finished_of_report {finished : List (Nat × CommandResult)}
    (collected : collectResults commands finished = .ok report) :
    ∀ entry ∈ report.commands, ∃ index < commands.length,
      finished.lookup index = some (.ok entry.2) := by
  intro entry member
  have listed : (entry.1, .ok entry.2) ∈ commands.zipIdx.map fun entry =>
      (entry.1, resultAt finished entry.2 entry.1) := by
    have same : (commands.zipIdx.map fun entry =>
        (entry.1, resultAt finished entry.2 entry.1)) = report.results :=
      allFailures_eq_ok.mp collected
    rw [same]
    exact List.mem_map_of_mem member
  obtain ⟨⟨command, index⟩, place, same⟩ := List.mem_map.mp listed
  obtain ⟨_, within, _⟩ := List.mem_zipIdx place
  refine ⟨index, by simpa using within, ?_⟩
  have result := (Prod.mk.inj same).2
  unfold resultAt at result
  cases came : finished.lookup index with
  | none => simp [came] at result
  | some result => simp_all

/-- The run may end so: in one of the interleavings the work on all commands comes to an end without
a failure, and the dependencies are saved after it. -/
structure Ends (run : Run) (commands : List ShaderCommand) (begun middle ended : BuildState) :
    Prop where
  worked : ∃ start phases, start.quiet = begun.quiet ∧
    (run.crew commands start).Reaches phases middle ∧
      ∀ worker, ∃ outcome, phases worker = .finished (.ok outcome)
  saved : (Snapshot.save middle.cache middle.world run.settings.cachePath).value =
    (.ok (), ended.world)
  rest : ended.quiet = { middle.quiet with world := ended.world }

theorem fileLevel_of_reaches {ι : Type} [DecidableEq ι] {team : Team ι} {phases : ι → Phase}
    (noFile : team.begun.fileLevel = none) (reaches : team.Reaches phases state) :
    state.fileLevel = none := by
  induction reaches with
  | start => exact noFile
  | @step phases state earlier worker running ih =>
    exact (@Task.move_of_step (team.tasks worker) team.tools (phases worker) state ih
      running).fileLevel.trans ih

private theorem save_of_saved (noFile : state.fileLevel = none) {world : World} (report : RunReport)
    (saved : (Snapshot.save state.cache state.world run.settings.cachePath).value = (.ok (), world)) :
    ∃ final, run.save (.ok report) state = (.ok report, final) ∧
      final.quiet = { state.quiet with world := world } := by
  unfold save
  dsimp only
  rw [saved]
  exact ⟨_, rfl, @BuildState.quiet_record { state with world := world } noFile _⟩

theorem saved_of_save {result : Except BuildFailure RunReport}
    (done : run.save result state = (.ok report, final)) : result = .ok report ∧
      ∃ world, (Snapshot.save state.cache state.world run.settings.cachePath).value =
        (.ok (), world) := by
  unfold save at done
  dsimp only at done
  cases saved : (Snapshot.save state.cache state.world run.settings.cachePath).value with
  | mk answer world =>
    rw [saved] at done
    cases answer with
    | ok => exact ⟨congrArg Prod.fst done, world, rfl⟩
    | error problem => cases result <;> cases done

private theorem runCommands_eq (noFile : begun.fileLevel = none) :
    ∃ start, start.quiet = begun.quiet ∧ run.runCommands commands begun =
      match run.save (run.work commands start).1 (run.work commands start).2 with
      | (.ok report, state) => (.ok report, state.note .info .orchestration report.summary)
      | (.error problem, state) => (.error problem, state) :=
  ⟨_, BuildState.quiet_record noFile _, rfl⟩

private theorem ok_of_results {results : List CommandResult} (same : results.length = commands.length)
    (listed : commands.zip results = report.results) :
    ∀ result ∈ results, ∃ outcome, result = .ok outcome := by
  have all : results = report.commands.map fun entry => .ok entry.2 := by
    have seconds := congrArg (List.map Prod.snd) listed
    rw [List.map_snd_zip (Nat.le_of_eq same), RunReport.results, List.map_map] at seconds
    exact seconds
  intro result member
  rw [all] at member
  obtain ⟨entry, _, rfl⟩ := List.mem_map.mp member
  exact ⟨entry.2, rfl⟩

private theorem ends_of_worked {start : BuildState} {world : World} (noFile : begun.fileLevel = none)
    (same : start.quiet = begun.quiet)
    (whole : run.runCommands commands begun =
      match run.save (run.work commands start).1 (run.work commands start).2 with
      | (.ok report, state) => (.ok report, state.note .info .orchestration report.summary)
      | (.error problem, state) => (.error problem, state))
    (results : commands.zip (run.worked commands start).1 = report.results)
    (saved : (Snapshot.save (run.worked commands start).2.cache
      (run.worked commands start).2.world run.settings.cachePath).value = (.ok (), world)) :
    ∃ ended, run.runCommands commands begun = (.ok report, ended) ∧
      run.Ends commands begun (run.worked commands start).2 ended := by
  have quiet : start.fileLevel = none := (congrArg BuildState.fileLevel same).trans noFile
  obtain ⟨phases, reaches, all, _⟩ := reaches_of_worked run commands start
  have noFileToo := fileLevel_of_reaches quiet reaches
  obtain ⟨final, done, ends⟩ := @save_of_saved run _ noFileToo world report saved
  have noFileLast : final.fileLevel = none := (congrArg BuildState.fileLevel ends).trans noFileToo
  have last := BuildState.quiet_record noFileLast [⟨.info, .orchestration, report.summary⟩]
  rw [work_eq_ok.mpr ⟨results, rfl⟩] at whole
  dsimp only at whole
  rw [done] at whole
  have ended : (final.note .info .orchestration report.summary).quiet =
      { (run.worked commands start).2.quiet with world := world } := last.trans ends
  have ended_world : (final.note .info .orchestration report.summary).world = world :=
    congrArg (fun state : BuildState => state.world) ended
  refine ⟨_, whole, ⟨start, phases, same, reaches, fun worker => ?_⟩, ?_, ?_⟩
  · obtain ⟨result, member, finished⟩ := all worker
    obtain ⟨outcome, rfl⟩ := ok_of_results (length_worked run commands start) results result member
    exact ⟨outcome, finished⟩
  · rw [ended_world, saved]
  · rw [ended_world, ended]

theorem runCommands_of_worked (noFile : begun.fileLevel = none)
    (works : ∀ start, start.quiet = begun.quiet →
      commands.zip (run.worked commands start).1 = report.results ∧
        ∃ world, (Snapshot.save (run.worked commands start).2.cache
          (run.worked commands start).2.world run.settings.cachePath).value = (.ok (), world)) :
    ∃ start ended, start.quiet = begun.quiet ∧ run.runCommands commands begun = (.ok report, ended) ∧
      run.Ends commands begun (run.worked commands start).2 ended := by
  obtain ⟨start, same, whole⟩ := @runCommands_eq run commands begun noFile
  obtain ⟨results, world, saved⟩ := works start same
  obtain ⟨ended, done, ends⟩ := ends_of_worked noFile same whole results saved
  exact ⟨start, ended, same, done, ends⟩

/-- A run that gives a report has come to it, and ends without a failure. -/
theorem worked_of_runCommands (noFile : begun.fileLevel = none)
    (done : run.runCommands commands begun = (.ok report, ended)) :
    ∃ start, start.quiet = begun.quiet ∧
      commands.zip (run.worked commands start).1 = report.results ∧
      run.Ends commands begun (run.worked commands start).2 ended := by
  obtain ⟨start, same, whole⟩ := @runCommands_eq run commands begun noFile
  have given := whole
  rw [done] at given
  cases last : run.save (run.work commands start).1 (run.work commands start).2 with
  | mk result final =>
    rw [last] at given
    cases result with
    | error problem => cases given
    | ok listed =>
      obtain ⟨worked, world, saved⟩ := saved_of_save last
      obtain ⟨results, state⟩ := work_eq_ok.mp (Prod.ext worked rfl)
      have savedToo := congrArg (fun state : BuildState =>
        (Snapshot.save state.cache state.world run.settings.cachePath).value) state
      obtain ⟨other, doneToo, ends⟩ :=
        ends_of_worked noFile same whole results (savedToo.trans saved)
      obtain ⟨reported, rfl⟩ := Prod.mk.inj (done.symm.trans doneToo)
      exact ⟨start, same, Except.ok.inj reported ▸ results, ends⟩

end Run

end ShaderBuild
