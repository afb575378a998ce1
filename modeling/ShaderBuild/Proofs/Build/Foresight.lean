import ShaderBuild.Proofs.Build.Reports
import ShaderBuild.Proofs.Build.Retry
import ShaderBuild.Proofs.Build.UpToDate
import ShaderBuild.Proofs.Build.Verdict
/-!
What a dry run tells of a real one. One after the other, independent commands are judged as they are at
the beginning, in either run, unless directories that the real run makes for artifacts change what a
command finds.
-/
namespace ShaderBuild

open ShaderBuild.Task (Phase)

/-- What the work on a command may look up, read, compare times of or write among files, with what is
known. -/
inductive Task.Involves (task : Task) (cache : DependencyStore) (files : FileSystem) : Path → Prop where
  | artifact {path : Path} (member : path ∈ task.artifacts.all) : Involves task cache files path
  | listed {set : PathSet} {path : Path} (known : cache.find? task.key = some set)
      (member : path ∈ set.paths) : Involves task cache files path
  | searched {path : Path} (searches : task.Searches files path) : Involves task cache files path
  | found {set : PathSet} {path : Path} (found : task.discovered files = .ok set)
      (member : path ∈ set.paths) : Involves task cache files path
  | expanded {path : Path} (expands : task.Expands files path) : Involves task cache files path

theorem Task.Considers.involves {task : Task} {state : BuildState} {path : Path}
    (considers : task.Considers state path) : task.Involves state.cache state.world.files path := by
  cases considers with
  | searched _ searches => exact .searched searches
  | known _ known member => exact .listed known member
  | found _ _ found member => exact .found found member
  | artifact _ member => exact .artifact member

/-- The paths that the work on a command involves whose template is without text. -/
def Task.involved (task : Task) (cache : DependencyStore) (files : FileSystem) : List Path :=
  task.artifacts.all ++ (task.source :: task.headers) ++
    (PathSet.empty.withSource files task.source task.headers).paths ++
    (cache.find? task.key).elim [] PathSet.paths

theorem Task.Involves.mem_involved {task : Task} {cache : DependencyStore} {files : FileSystem}
    {path : Path} (involves : task.Involves cache files path)
    (read : ∀ text, files.readText task.source = .ok text → text = []) :
    path ∈ task.involved cache files := by
  unfold involved
  cases involves with
  | artifact member => simp [member]
  | listed known member => simp [known, member]
  | searched searches => simp [searches.of_empty read]
  | found found member =>
    obtain ⟨text, _, readable, _, _⟩ := discover_eq_ok.mp found
    obtain rfl := read text readable
    obtain rfl := Except.ok.inj ((discovered_empty readable).symm.trans found)
    simp [member]
  | expanded expands => rcases expands.of_empty read with rfl | member <;> simp [*]

namespace Run

/-- The same run, but dry. -/
def rehearsal (run : Run) : Run :=
  { run with settings := { run.settings with dryRun := true } }

/-- The commands that are worked on one after the other, up to and including the first that fails, with
what they come to. -/
def reported (run : Run) :
    List ShaderCommand → BuildState → List (ShaderCommand × CommandResult)
  | [], _ => []
  | command :: rest, state =>
    let done := (run.task command).process run.tools state
    (command, done.1) ::
      match done.1 with
      | .ok _ => run.reported rest done.2
      | .error _ => []

/-- The commands of a list, where those among the first so many that are stale at the beginning make the
directories of their artifacts. -/
def early (run : Run) (commands : List ShaderCommand) (begun : BuildState) (count : Nat) :
    Team (Fin commands.length) where
  tasks worker := run.task (commands.get worker)
  tools := run.tools
  begun := begun
  makers worker := worker.val < count ∧
    (run.task (commands.get worker)).verdict? begun = some true ∧ run.settings.dryRun = false

/-- No two commands have the same key, tools write nothing but the artifact that they are asked for, and
no artifact of one command is where another looks anything up, reads, compares times or writes, whatever
directories for artifacts are made. -/
structure Independent (run : Run) (commands : List ShaderCommand) (begun : BuildState) : Prop where
  confined : (run.early commands begun commands.length).Confined
  keys : ∀ worker other : Fin commands.length, worker ≠ other →
    (run.task (commands.get worker)).key.same (run.task (commands.get other)).key = false
  apart : ∀ worker other : Fin commands.length, worker ≠ other →
    ∀ laid now, (run.early commands begun commands.length).Laid laid →
      (run.early commands begun commands.length).Laid now →
    ∀ path, (run.task (commands.get worker)).Involves begun.cache laid path →
      ∀ location, now.outlet? path = some location →
        ¬(run.early commands begun commands.length).Owned other location

/-- Directories that are made for artifacts of earlier commands change nothing of what a command
finds until it is judged. -/
def Undisturbed (run : Run) (commands : List ShaderCommand) (begun : BuildState) : Prop :=
  ∀ (worker : Fin commands.length) (path : Path),
    (run.task (commands.get worker)).Considers begun path →
    ∀ laid, (run.early commands begun worker.val).Laid laid →
      laid.file? path = begun.world.files.file? path

/-- What both kinds of run need of the commands for each to be judged as at the beginning. -/
structure Foreseeable (run : Run) (commands : List ShaderCommand) (begun : BuildState) : Prop where
  confined : (run.early commands begun commands.length).Confined
  keys : ∀ worker other : Fin commands.length, worker ≠ other →
    (run.task (commands.get worker)).key.same (run.task (commands.get other)).key = false
  apart : ∀ worker other : Fin commands.length, worker ≠ other →
    ∀ laid, (run.early commands begun commands.length).Laid laid →
    ∀ path, (run.task (commands.get worker)).Considers begun path →
      ∀ location, laid.outlet? path = some location →
        ¬(run.early commands begun commands.length).Owned other location
  undisturbed : run.Undisturbed commands begun

/-- What a run of one command after the other has left as it was when so many are done. -/
structure Advanced (run : Run) (commands : List ShaderCommand) (begun : BuildState) (count : Nat)
    (state : BuildState) : Prop where
  quiet : state.fileLevel = none
  above : ∃ base, (run.early commands begun count).Over base state.world.files
  file : ∀ location, (∀ worker : Fin commands.length, worker.val < count →
      ¬(run.early commands begun commands.length).Owned worker location) →
    state.world.files.fileAt? location = begun.world.files.fileAt? location
  entry : ∀ key, (∀ worker : Fin commands.length, worker.val < count →
      (run.task (commands.get worker)).key.same key = false) →
    state.cache.find? key = begun.cache.find? key

/-- What holds at a phase of the work on a command that began in the state `before`. -/
structure Amid (run : Run) (commands : List ShaderCommand) (begun : BuildState)
    (worker : Fin commands.length) (before : BuildState) (phase : Phase) (now : BuildState) :
    Prop where
  judging : (run.task (commands.get worker)).Judging before now phase
  above : ∃ base, (run.early commands begun (worker.val + 1)).Over base now.world.files
  changes : (run.early commands begun commands.length).Changes worker before now

variable {run : Run} {commands : List ShaderCommand} {begun state after : BuildState}
  {worker : Fin commands.length} {count total : Nat} {base laid : FileSystem} {location : Location}

section

variable {more : Nat} (le : count ≤ more)
include le

private theorem laid_more (is : (run.early commands begun count).Laid laid) :
    (run.early commands begun more).Laid laid := by
  induction is with
  | start => exact .start
  | make _ maker wanted done ih => exact ih.make ⟨Nat.lt_of_lt_of_le maker.1 le, maker.2⟩ wanted done

private theorem owned_more (owned : (run.early commands begun count).Owned worker location) :
    (run.early commands begun more).Owned worker location := by
  obtain ⟨laid, is, artifact, member, leads⟩ := owned
  exact ⟨laid, laid_more le is, artifact, member, leads⟩

private theorem over_more {now : FileSystem} (above : (run.early commands begun count).Over base now) :
    (run.early commands begun more).Over base now :=
  ⟨laid_more le above.laid, above.framed,
    fun location free => above.file location fun worker owned => free worker (owned_more le owned),
    above.kept⟩

private theorem changes_more (changes : (run.early commands begun count).Changes worker state after) :
    (run.early commands begun more).Changes worker state after :=
  ⟨changes.directory, fun location apart => changes.file location fun owned =>
    apart (owned_more le owned), changes.entry⟩

end

namespace Advanced

private theorem file? (advanced : run.Advanced commands begun worker.val state)
    (foreseeable : run.Foreseeable commands begun) {path : Path}
    (considers : (run.task (commands.get worker)).Considers begun path) :
    state.world.files.file? path = begun.world.files.file? path := by
  obtain ⟨base, above⟩ := advanced.above
  have laid := laid_more (Nat.le_of_lt worker.isLt) above.laid
  rw [← foreseeable.undisturbed worker path considers base above.laid, FileSystem.file?,
    FileSystem.file?, above.framed.outlet?]
  cases leads : base.outlet? path with
  | none => rfl
  | some location =>
    rw [Option.bind_some, Option.bind_some, above.laid.fileAt?]
    refine advanced.file location fun other earlier => ?_
    exact foreseeable.apart worker other (fun same => Nat.lt_irrefl _ (same ▸ earlier)) base laid
      path considers location leads

theorem verdict?_eq (advanced : run.Advanced commands begun worker.val state)
    (foreseeable : run.Foreseeable commands begun) :
    (run.task (commands.get worker)).verdict? state =
      (run.task (commands.get worker)).verdict? begun := by
  obtain ⟨base, above⟩ := advanced.above
  refine Task.verdict?_congr above.workingDirectory (advanced.entry _ fun other earlier => ?_)
    fun path considers => advanced.file? foreseeable considers
  exact foreseeable.keys other worker fun same => Nat.lt_irrefl _ (same ▸ earlier)

private theorem move {phase next : Phase} {now later : BuildState}
    (advanced : run.Advanced commands begun worker.val state)
    (foreseeable : run.Foreseeable commands begun)
    (step : Task.Move (run.task (commands.get worker)) run.tools phase now next later)
    (amid : run.Amid commands begun worker state phase now) :
    run.Amid commands begun worker state next later := by
  obtain ⟨base, above⟩ := amid.above
  have confined : (run.early commands begun (worker.val + 1)).Confined := foreseeable.confined
  have makes : phase = .prepare → (run.early commands begun (worker.val + 1)).makers worker := by
    rintro rfl
    obtain ⟨stale, wet⟩ := amid.judging
    exact ⟨Nat.lt_succ_self _, (advanced.verdict?_eq foreseeable).symm.trans stale, wet⟩
  obtain ⟨changes, aboveToo⟩ := Team.changes_of_move confined makes step above
  refine ⟨Task.judging_of_move step amid.judging, aboveToo, ?_⟩
  apply amid.changes.trans
  exact changes_more worker.isLt changes

/-- When it is done, one command more is. -/
theorem process (advanced : run.Advanced commands begun worker.val state)
    (foreseeable : run.Foreseeable commands begun) :
    run.Advanced commands begun (worker.val + 1)
      ((run.task (commands.get worker)).process run.tools state).2 := by
  obtain ⟨base, above⟩ := advanced.above
  have begins : run.Amid commands begun worker state .lookup state.quiet :=
    ⟨⟨rfl, rfl⟩, ⟨base, over_more (Nat.le_succ _) above⟩,
      ⟨fun _ there => there, fun _ _ => rfl, fun _ _ => rfl⟩⟩
  have amid := @Task.complete_induction (run.task (commands.get worker)) run.tools
    (run.Amid commands begun worker state)
    (fun _ _ _ _ step amid => advanced.move foreseeable step amid) .lookup state advanced.quiet begins
  refine ⟨Task.fileLevel_process advanced.quiet, amid.above, ?_, ?_⟩
  · intro location free
    apply (amid.changes.file location (free worker (Nat.lt_succ_self _))).trans
    apply advanced.file location
    intro other earlier
    exact free other (Nat.lt_succ_of_lt earlier)
  · intro key free
    apply (amid.changes.entry key (free worker (Nat.lt_succ_self _))).trans
    apply advanced.entry key
    intro other earlier
    exact free other (Nat.lt_succ_of_lt earlier)

end Advanced

theorem sequential_eq_reported (run : Run) (total : Nat) (commands : List ShaderCommand)
    (state : BuildState) :
    (run.sequential total commands state).1 = firstFailure total (run.reported commands state) := by
  induction commands generalizing state with
  | nil => rfl
  | cons command rest ih =>
    have rests := ih ((run.task command).process run.tools state).2
    rw [sequential, reported]
    revert rests
    generalize (run.task command).process run.tools state = done
    obtain ⟨result, after⟩ := done
    cases result with
    | error problem => exact fun _ => rfl
    | ok outcome =>
      dsimp only
      intro rests
      rw [firstFailure_cons, ← rests]
      generalize run.sequential total rest after = ended
      obtain ⟨answer, last⟩ := ended
      cases answer <;> rfl

/-- What a command came to agrees with the judgement at the beginning. -/
structure Bears (run : Run) (begun : BuildState) (command : ShaderCommand) (result : CommandResult) :
    Prop where
  upToDate : result = .ok .upToDate ↔ (run.task command).verdict? begun = some false
  wouldRebuild : result = .ok .wouldRebuild → (run.task command).verdict? begun = some true
  stale : run.settings.dryRun = false → (run.task command).verdict? begun = some true →
    result = .ok .rebuilt ∨ ∃ problem, result = .error problem

private theorem bears_reported (foreseeable : run.Foreseeable commands begun)
    (front rest : List ShaderCommand) (whole : commands = front ++ rest)
    (advanced : run.Advanced commands begun front.length state) (index : Nat)
    {entry : ShaderCommand × CommandResult} (listed : (run.reported rest state)[index]? = some entry) :
    rest[index]? = some entry.1 ∧ run.Bears begun entry.1 entry.2 := by
  -- On the commands that are left, those before them being done.
  induction rest generalizing front state index with
  | nil => cases listed
  | cons command rest ih =>
    have within : front.length < commands.length := by simp [whole]
    let worker : Fin commands.length := ⟨front.length, within⟩
    have own : commands.get worker = command := by
      rw [List.get_eq_getElem]
      simp [whole, worker]
    have here : run.Advanced commands begun worker.val state := advanced
    have same := here.verdict?_eq foreseeable
    have next := here.process foreseeable
    rw [own] at same next
    rw [reported] at listed
    cases index with
    | zero =>
      obtain rfl := Option.some.inj listed
      refine ⟨rfl, ?_⟩
      constructor
      · exact same ▸ Task.process_eq_upToDate run.tools advanced.quiet
      · exact fun done => same ▸ ((Task.process_eq_wouldRebuild run.tools advanced.quiet).mp done).1
      · exact fun wet stale => Task.process_of_stale run.tools advanced.quiet wet (same.trans stale)
    | succ index =>
      rw [List.getElem?_cons_succ] at listed
      split at listed
      · exact ih (front ++ [command]) (by simp [whole]) (by simpa using next) index listed
      · cases listed

private theorem advanced_start (noFile : begun.fileLevel = none) : run.Advanced commands begun 0 begun :=
  ⟨noFile, ⟨_, Team.over_start⟩, fun _ _ => rfl, fun _ _ => rfl⟩

private theorem foreseeable_of_independent (independent : run.Independent commands begun)
    (undisturbed : run.Undisturbed commands begun) : run.Foreseeable commands begun :=
  ⟨independent.confined, independent.keys, fun worker other differ laid is path considers =>
    independent.apart worker other differ _ laid .start is path considers.involves, undisturbed⟩

private theorem laid_rehearsal (is : (run.rehearsal.early commands begun count).Laid laid) :
    laid = begun.world.files :=
  is.eq_begun fun _ maker => Bool.noConfusion maker.2.2

private theorem considers_rehearsal {command : ShaderCommand} {path : Path}
    (considers : (run.rehearsal.task command).Considers begun path) :
    (run.task command).Considers begun path := by
  cases considers with
  | searched unknown searches =>
    refine .searched unknown ?_
    cases searches with
    | source => exact .source
    | included read looks => exact .included read looks
  | known unforced known member => exact .known unforced known member
  | found unforced unknown found member => exact .found unforced unknown found member
  | artifact unforced member => exact .artifact unforced member

private theorem foreseeable_rehearsal (independent : run.Independent commands begun) :
    run.rehearsal.Foreseeable commands begun := by
  refine ⟨independent.confined, independent.keys, ?_, fun worker path considers laid is => ?_⟩
  · intro worker other differ laid is path considers location leads owned
    obtain ⟨laidToo, isToo, artifact, member, leadsToo⟩ := owned
    obtain rfl := laid_rehearsal is
    obtain rfl := laid_rehearsal isToo
    exact independent.apart worker other differ _ _ .start .start path
      (considers_rehearsal considers).involves location leads ⟨_, .start, artifact, member, leadsToo⟩
  · rw [laid_rehearsal is]

/-- A dry run tells of the real run for independent commands, up to the first that fails in either,
where directories that the real run makes for artifacts do not change what later commands find: the
same commands are up to date, and those that would be rebuilt are, or fail. -/
theorem foretold_of_independent (wet : run.settings.dryRun = false) (noFile : begun.fileLevel = none)
    (independent : run.Independent commands begun) (undisturbed : run.Undisturbed commands begun) :
    (∀ total, (run.rehearsal.sequential total commands begun).1 =
        firstFailure total (run.rehearsal.reported commands begun) ∧
      (run.sequential total commands begun).1 = firstFailure total (run.reported commands begun)) ∧
    ∀ (index : Nat) (dry real : ShaderCommand × CommandResult),
      (run.rehearsal.reported commands begun)[index]? = some dry →
      (run.reported commands begun)[index]? = some real →
      dry.1 = real.1 ∧ (dry.2 = .ok .upToDate ↔ real.2 = .ok .upToDate) ∧
        (dry.2 = .ok .wouldRebuild →
          real.2 = .ok .rebuilt ∨ ∃ problem, real.2 = .error problem) := by
  constructor
  · intro total
    exact ⟨sequential_eq_reported run.rehearsal total commands begun,
      sequential_eq_reported run total commands begun⟩
  · intro index dry real rehearsed performed
    obtain ⟨place, bears⟩ := bears_reported (foreseeable_rehearsal independent) [] commands rfl
      (advanced_start noFile) index rehearsed
    obtain ⟨placeToo, bearsToo⟩ := bears_reported
      (foreseeable_of_independent independent undisturbed) [] commands rfl (advanced_start noFile)
      index performed
    have same : dry.1 = real.1 := Option.some.inj (place.symm.trans placeToo)
    rw [← same] at bearsToo
    refine ⟨same, bears.upToDate.trans bearsToo.upToDate.symm, ?_⟩
    intro would
    apply bearsToo.stale wet
    exact bears.wouldRebuild would

/-- The template of another command, newer than its artifacts. -/
def aheadFiles : FileSystem :=
  ["b", "b.spv", "b.opt.spv", "b.json", "b.glsl"].foldl (fun files name => files.made name [] 7)
    ((pairFiles (.text [])).made "b.slv" [] 9)

/-- With the directory for the artifacts of the first command. -/
def aheadLaid : FileSystem :=
  aheadFiles.put ["out".toList] .directory

def aheadRun : Run :=
  { pairRun with tools := Task.idleTools }

/-- The command `410;mono;out/../b.slv;b`. -/
def laterCommand : ShaderCommand :=
  ⟨"410".toList, .mono, upward, Path.of "b", []⟩

/-- A state in which one dependency of the later command is known. -/
def aheadState (known : Path) : BuildState :=
  ⟨⟨aheadFiles, fun tick => tick + 10, 0⟩, ⟨[((aheadRun.task laterCommand).key, ⟨[known]⟩)]⟩,
    [], [], none⟩

/-- Where the artifacts of a command may come to stand. -/
def aheadOutlets (command : ShaderCommand) : List Location :=
  [aheadFiles, aheadLaid].flatMap fun laid =>
    (aheadRun.task command).artifacts.all.filterMap laid.outlet?

variable {known : Path}

private theorem pair_ahead (worker other : Fin [firstCommand, laterCommand].length)
    (differ : worker ≠ other) :
    ([firstCommand, laterCommand].get worker, [firstCommand, laterCommand].get other) ∈
      [(firstCommand, laterCommand), (laterCommand, firstCommand)] := by
  revert worker other
  refine Fin.forall_fin_two.mpr ⟨Fin.forall_fin_two.mpr ⟨absurd rfl, fun _ => List.mem_cons_self⟩,
    Fin.forall_fin_two.mpr ⟨fun _ => List.mem_cons_of_mem _ List.mem_cons_self, absurd rfl⟩⟩

private theorem laid_ahead
    (is : (aheadRun.early [firstCommand, laterCommand] (aheadState known) count).Laid laid) :
    laid ∈ [aheadFiles, aheadLaid] := by
  have directories : ∀ command ∈ [firstCommand, laterCommand],
      ∀ path ∈ (aheadRun.task command).directories, path ∈ [Path.of "/out", Path.of "/"] := by
    have all : [firstCommand, laterCommand].all fun command =>
      (aheadRun.task command).directories.all [Path.of "/out", Path.of "/"].contains := by cbv
    simpa using all
  have out : aheadFiles.makeDirectory (Path.of "/out") = .ok aheadLaid := by cbv
  have outToo : aheadLaid.makeDirectory (Path.of "/out") = .error .alreadyExists := by cbv
  have root : aheadFiles.makeDirectory (Path.of "/") = .error .alreadyExists := by cbv
  have rootToo : aheadLaid.makeDirectory (Path.of "/") = .error .alreadyExists := by cbv
  induction is with
  | start => exact List.mem_cons_self
  | @make laid made worker path earlier maker wanted done ih =>
    have listed := directories _ (List.getElem_mem worker.isLt) path wanted
    simp only [List.mem_cons, List.not_mem_nil, or_false] at listed ih ⊢
    rcases listed with rfl | rfl <;> rcases ih with rfl | rfl
    · exact .inr (Except.ok.inj (done.symm.trans out))
    · cases done.symm.trans outToo
    · cases done.symm.trans root
    · cases done.symm.trans rootToo

private theorem read_ahead : ∀ laid ∈ [aheadFiles, aheadLaid],
    ∀ command ∈ [firstCommand, laterCommand], ∀ text,
      laid.readText (aheadRun.task command).source = .ok text → text = [] := by
  have empty : [aheadFiles, aheadLaid].all fun laid => [firstCommand, laterCommand].all fun command =>
      (laid.readText (aheadRun.task command).source).toOption.all List.isEmpty := by cbv
  intro laid is command member text read
  have here := List.all_eq_true.mp (List.all_eq_true.mp empty laid is) command member
  simpa [read, Except.toOption] using here

private theorem owned_ahead {worker : Fin [firstCommand, laterCommand].length}
    (owned : (aheadRun.early [firstCommand, laterCommand] (aheadState known) count).Owned worker
      location) : location ∈ aheadOutlets ([firstCommand, laterCommand].get worker) := by
  obtain ⟨laid, is, artifact, member, leads⟩ := owned
  exact List.mem_flatMap.mpr ⟨laid, laid_ahead is, List.mem_filterMap.mpr ⟨artifact, member, leads⟩⟩

private theorem apart_ahead (listed : known ∈ [Path.of "/out/../b.slv", Path.of "/a.slv"])
    {command other : ShaderCommand}
    (pair : (command, other) ∈ [(firstCommand, laterCommand), (laterCommand, firstCommand)])
    {laid now : FileSystem} (is : laid ∈ [aheadFiles, aheadLaid])
    (isToo : now ∈ [aheadFiles, aheadLaid]) {path : Path}
    (involves : (aheadRun.task command).Involves (aheadState known).cache laid path)
    (leads : now.outlet? path = some location) : location ∉ aheadOutlets other := by
  have clear : [Path.of "/out/../b.slv", Path.of "/a.slv"].all fun known =>
      [(firstCommand, laterCommand), (laterCommand, firstCommand)].all fun pair =>
        [aheadFiles, aheadLaid].all fun laid => [aheadFiles, aheadLaid].all fun now =>
          now.clear ((aheadRun.task pair.1).involved (aheadState known).cache laid)
            (aheadOutlets pair.2) := by cbv
  simp only [List.all_eq_true] at clear
  have member : command ∈ [firstCommand, laterCommand] := by
    simp only [List.mem_cons, Prod.mk.injEq, List.not_mem_nil, or_false] at pair ⊢
    exact pair.imp And.left And.left
  exact FileSystem.not_mem_of_clear (clear known listed _ pair laid is now isToo)
    (involves.mem_involved (read_ahead laid is command member)) (FileSystem.stops_of_outlet? leads)

private theorem independent_ahead (listed : known ∈ [Path.of "/out/../b.slv", Path.of "/a.slv"]) :
    aheadRun.Independent [firstCommand, laterCommand] (aheadState known) := by
  have keys : [(firstCommand, laterCommand), (laterCommand, firstCommand)].all fun pair =>
      !(aheadRun.task pair.1).key.same (aheadRun.task pair.2).key := by cbv
  simp only [List.all_eq_true, Bool.not_eq_true'] at keys
  constructor
  · exact fun _ => Task.confined_idle _
  · intro worker other differ
    have h := keys _ (pair_ahead worker other differ)
    exact h
  · intro worker other differ laid now is isToo path involves location leads owned
    exact apart_ahead listed (pair_ahead worker other differ) (laid_ahead is) (laid_ahead isToo)
      involves leads (owned_ahead owned)

/-- What the first command leaves when it is rebuilt. -/
def aheadBuilt (text : Text) : FileSystem :=
  aheadLaid.put ["out".toList, "a".toList] (.file ⟨.text text, 10, false, false⟩)

private theorem rebuilt_ahead (known : Path) : ∃ after text,
    (aheadRun.task firstCommand).process aheadRun.tools (aheadState known) =
      (.ok .rebuilt, after) ∧ after.fileLevel = none ∧ after.world.files = aheadBuilt text ∧
      after.cache.find? (aheadRun.task laterCommand).key = some ⟨[known]⟩ := by
  have read : aheadFiles.readText (aheadRun.task firstCommand).source = .ok [] := by cbv
  have readToo : aheadLaid.readText (aheadRun.task firstCommand).source = .ok [] := by cbv
  have unknown : (aheadState known).cache.find? (aheadRun.task firstCommand).key = none := by cbv
  have stale : (aheadRun.task firstCommand).isStale aheadFiles
      (PathSet.empty.withSource aheadFiles (aheadRun.task firstCommand).source
        (aheadRun.task firstCommand).headers) = true := by cbv
  have made : ∀ parent, (aheadRun.task firstCommand).outputBase.parent? = some parent →
      (aheadFiles.makeDirectories parent).1 = .ok () := by
    intro parent top
    have out : (aheadRun.task firstCommand).outputBase.parent? = some (Path.of "/out") := by cbv
    obtain rfl := Option.some.inj (out.symm.trans top)
    cbv
  have laid : (aheadRun.task firstCommand).prepared aheadFiles = aheadLaid := by cbv
  have stage : ShaderStage.ofPath? (aheadRun.task firstCommand).source = some .vertex := by cbv
  obtain ⟨expansion, expands⟩ := Task.expand_empty stage readToo (by cbv)
  have leads : aheadLaid.outlet? (aheadRun.task firstCommand).artifacts.expanded =
      some ["out".toList, "a".toList] := by cbv
  have absent : aheadLaid.fileAt? ["out".toList, "a".toList] = none := by cbv
  have written : aheadLaid.write (aheadRun.task firstCommand).artifacts.expanded
      (aheadState known).world.now (.text expansion.text) = .ok (aheadBuilt expansion.text) :=
    FileSystem.write_eq_ok.mpr ⟨_, leads, by rw [absent]; rfl⟩
  have started (stage : ToolStage) : ((aheadRun.task firstCommand).launchOf stage).check
      (aheadBuilt expansion.text) = .ok () := by
    generalize expansion.text = text
    cases stage <;> cbv
  have prepares := @Task.Move.prepared _ aheadRun.tools { aheadState known with
    cache := (aheadState known).cache.insert (aheadRun.task firstCommand).key
      (PathSet.empty.withSource aheadFiles (aheadRun.task firstCommand).source
        (aheadRun.task firstCommand).headers) } made
  dsimp only at prepares
  rw [show (aheadState known).world.files = aheadFiles from rfl, laid] at prepares
  obtain ⟨result, left⟩ := @Task.Moves.complete _ _ .lookup (aheadState known) _ _
    (.step (.miss unknown) (.step (.discovered (Task.discovered_empty read)) (.step (.store _)
      (.step (.rebuild stale rfl) (.step prepares
        (.step (.rediscovered (Task.discovered_empty readToo)) (.step (.restore _)
          (.step (.expanded expands) (.step (.written written)
            (.step (.succeeded (started .compile) rfl rfl)
              (.step (.succeeded (started .optimize) rfl rfl)
                (.step (.succeeded (started .reflect) rfl rfl)
                  (.step (.succeeded (started .crossCompile) rfl rfl) (.done _ _)))))))))))))) rfl
  refine ⟨_, expansion.text, Prod.ext result rfl, Task.fileLevel_process rfl,
    congrArg (·.world.files) left, ?_⟩
  refine (congrArg (·.cache.find? (aheadRun.task laterCommand).key) left).trans ?_
  cbv

private theorem dry_ahead (listed : known ∈ [Path.of "/out/../b.slv", Path.of "/a.slv"]) :
    ∃ dry, (aheadRun.rehearsal.reported [firstCommand, laterCommand] (aheadState known))[1]? =
      some dry ∧ dry.2 = .ok .upToDate := by
  have read : aheadFiles.readText (aheadRun.rehearsal.task firstCommand).source = .ok [] := by cbv
  have unknown : (aheadState known).cache.find? (aheadRun.rehearsal.task firstCommand).key = none := by
    cbv
  have stale : (aheadRun.rehearsal.task firstCommand).verdict? (aheadState known) = some true := by
    rw [Task.verdict?, unknown]
    change ((aheadRun.rehearsal.task firstCommand).discovered aheadFiles).toOption.map _ = _
    rw [Task.discovered_empty read]
    cbv
  have would := (Task.process_eq_wouldRebuild aheadRun.tools rfl).mpr ⟨stale, rfl⟩
  have performed : (aheadRun.rehearsal.reported [firstCommand, laterCommand]
      (aheadState known))[1]? = some (laterCommand, ((aheadRun.rehearsal.task laterCommand).process
        aheadRun.tools ((aheadRun.rehearsal.task firstCommand).process aheadRun.tools
          (aheadState known)).2).1) := by
    rw [reported, show ((aheadRun.rehearsal.task firstCommand).process aheadRun.rehearsal.tools
      (aheadState known)).1 = .ok .wouldRebuild from would]
    rfl
  obtain ⟨_, bears⟩ := bears_reported (foreseeable_rehearsal (independent_ahead listed)) [] _ rfl
    (advanced_start rfl) 1 performed
  refine ⟨_, performed, bears.upToDate.mpr ?_⟩
  have current : [Path.of "/out/../b.slv", Path.of "/a.slv"].all fun known =>
    (aheadRun.rehearsal.task laterCommand).verdict? (aheadState known) == some false := by cbv
  simp only [List.all_eq_true, beq_iff_eq] at current
  exact current known listed

private theorem real_ahead (known : Path) : ∃ real text,
    (aheadRun.reported [firstCommand, laterCommand] (aheadState known))[1]? = some real ∧
      (real.2 = .ok .upToDate ↔
        (aheadRun.task laterCommand).isStale (aheadBuilt text) ⟨[known]⟩ = false) := by
  obtain ⟨after, text, rebuilt, quiet, files, knows⟩ := rebuilt_ahead known
  refine ⟨(laterCommand, ((aheadRun.task laterCommand).process aheadRun.tools after).1), text, ?_, ?_⟩
  · rw [reported, rebuilt]
    rfl
  · rw [Task.process_eq_upToDate _ quiet, Task.verdict?, knows, files, Option.some_inj]

/-- The later command is up to date in the dry run, where its template is not found; in the real run
the first command has made the directory through which the way to the template leads. -/
theorem upToDate_ne_of_rehearsal_upward :
    let begun := aheadState (Path.of "/out/../b.slv")
    aheadRun.settings.dryRun = false ∧ begun.fileLevel = none ∧
      aheadRun.Independent [firstCommand, laterCommand] begun ∧
      ∃ dry real,
        (aheadRun.rehearsal.reported [firstCommand, laterCommand] begun)[1]? = some dry ∧
        (aheadRun.reported [firstCommand, laterCommand] begun)[1]? = some real ∧
        dry.2 = .ok .upToDate ∧ real.2 ≠ .ok .upToDate := by
  have listed : Path.of "/out/../b.slv" ∈ [Path.of "/out/../b.slv", Path.of "/a.slv"] :=
    List.mem_cons_self
  obtain ⟨dry, rehearsed, upToDate⟩ := dry_ahead listed
  obtain ⟨real, text, performed, current⟩ := real_ahead (Path.of "/out/../b.slv")
  have stale : (aheadRun.task laterCommand).isStale (aheadBuilt text) ⟨[Path.of "/out/../b.slv"]⟩ =
      true := by cbv
  refine ⟨rfl, rfl, independent_ahead listed, dry, real, rehearsed, performed, upToDate, ?_⟩
  rw [Ne, current, stale]
  exact Bool.noConfusion

private theorem undisturbed_ahead :
    aheadRun.Undisturbed [firstCommand, laterCommand] (aheadState (Path.of "/a.slv")) := by
  intro worker path considers laid is
  revert worker
  refine Fin.forall_fin_two.mpr ⟨fun _ is => ?_, fun considers is => ?_⟩
  · rw [is.eq_begun fun _ maker => absurd maker.1 (Nat.not_lt_zero _)]
    rfl
  · have knows : (aheadState (Path.of "/a.slv")).cache.find? (aheadRun.task laterCommand).key =
        some ⟨[Path.of "/a.slv"]⟩ := by cbv
    have same : (Path.of "/a.slv" :: (aheadRun.task laterCommand).artifacts.all).map aheadLaid.file? =
        (Path.of "/a.slv" :: (aheadRun.task laterCommand).artifacts.all).map aheadFiles.file? := by
      cbv
    have member : path ∈ Path.of "/a.slv" :: (aheadRun.task laterCommand).artifacts.all := by
      cases considers with
      | searched unknown | found _ unknown => cases unknown.symm.trans knows
      | known _ found member =>
        obtain rfl := Option.some.inj (found.symm.trans knows)
        exact List.mem_cons.mpr (.inl (List.mem_singleton.mp member))
      | artifact _ member => exact List.mem_cons_of_mem _ member
    have laids := laid_ahead is
    simp only [List.mem_cons, List.not_mem_nil, or_false] at laids
    rcases laids with rfl | rfl
    · rfl
    · exact List.map_inj_left.mp same path member

/-- With another dependency known nothing that the later command considers is changed by the
directory, so the dry run tells that it is up to date in the real run too. -/
theorem foretold_of_independent_ahead :
    let begun := aheadState (Path.of "/a.slv")
    ∃ dry real, (aheadRun.rehearsal.reported [firstCommand, laterCommand] begun)[1]? = some dry ∧
      (aheadRun.reported [firstCommand, laterCommand] begun)[1]? = some real ∧
      dry.2 = .ok .upToDate ∧ real.2 = .ok .upToDate := by
  have listed : Path.of "/a.slv" ∈ [Path.of "/out/../b.slv", Path.of "/a.slv"] :=
    List.mem_cons_of_mem _ List.mem_cons_self
  obtain ⟨dry, rehearsed, upToDate⟩ := dry_ahead listed
  obtain ⟨real, _, performed, _⟩ := real_ahead (Path.of "/a.slv")
  refine ⟨dry, real, rehearsed, performed, upToDate, ?_⟩
  have foretold := foretold_of_independent rfl rfl (independent_ahead listed) undisturbed_ahead
  exact (foretold.2 1 dry real rehearsed performed).2.1.mp upToDate

end Run

end ShaderBuild
