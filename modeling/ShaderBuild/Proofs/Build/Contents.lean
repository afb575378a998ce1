import ShaderBuild.Proofs.Build.UpToDate
import ShaderBuild.Proofs.Expansion.Agreement
/-!
What the expanded artifact holds: the text that the source and the headers make under the profile of
the run that wrote it, unless one of them is as new as the artifact.
-/
namespace ShaderBuild

/-- The text of a body, once the blocks are rendered. -/
def Source.finish (rendered : Text) : Text :=
  (replaceMarkers Include.nativeLine? (settled rendered)).value

theorem Expanding.value_mapM_readText {first second : FileSystem} {paths : List Path}
    {texts : List Text} (read : ((paths.mapM Expanding.readText).run first).value = .ok texts)
    (same : ∀ path ∈ paths, ∀ text, first.readText path = .ok text →
      second.readText path = .ok text) :
    ((paths.mapM Expanding.readText).run second).value = .ok texts := by
  rw [mapM_readText_eq_ok, List.forall₂_iff_zip] at read ⊢
  exact ⟨read.1, fun {path text} member =>
    same path (List.of_mem_zip member).1 text (read.2 member)⟩

namespace Task

variable {task : Task} {tools : Tools} {set : PathSet} {files first second : FileSystem}
  {cache : DependencyStore} {phase next : Phase} {state after : BuildState} {profile text : Text}

/-- What the expanded text is made of: all but where the includes lead. -/
structure Parts (task : Task) (files : FileSystem) (stage : ShaderStage) (source rendered : Text)
    (headers : List Text) : Prop where
  known : ShaderStage.ofPath? task.source = some stage
  read : files.readText task.source = .ok source
  blocks : (defineBlocks (files.absolute task.source) source).run.value = .ok rendered
  passed : checkLeftovers (files.absolute task.source) (Source.finish rendered) = .ok ()
  heads : ((task.headers.mapM Expanding.readText).run files).value = .ok headers

/-- The expanded text under a profile. -/
def compose (task : Task) (profile : Text) (stage : ShaderStage) (rendered : Text)
    (headers : List Text) : Text :=
  let preamble : Preamble := ⟨task.headers, [("GLPROFILE".toList, profile)]⟩
  Text.joinWith ['\n'] (preamble.sections stage headers ++ [Source.finish rendered])

/-- The text is what the source and the headers make under a profile. -/
def Composed (task : Task) (profile : Text) (files : FileSystem) (text : Text) : Prop :=
  ∃ stage source rendered headers, task.Parts files stage source rendered headers ∧
    text = task.compose profile stage rendered headers

/-- An expansion is made of parts, and follows the includes. -/
theorem expand_eq_ok {expansion : Expanded} :
    ((task.expand files).run files).value = .ok expansion ↔
      ∃ stage source rendered headers included,
        task.Parts files stage source rendered headers ∧
        ((Include.collect files task.searchPath (files.absolute task.source)
          (Source.settled rendered)).run files).value = .ok included ∧
        expansion = ⟨task.compose task.settings.glProfile stage rendered headers,
          included.withSource files (files.absolute task.source) task.headers⟩ := by
  rw [expand, Expanding.value_bind]
  constructor
  · intro expands
    obtain ⟨source, reads, expands⟩ := bind_eq_ok.mp expands
    cases known : ShaderStage.ofPath? task.source with
    | none => simp [Source.read, known] at reads
    | some stage =>
      rw [Source.value_read files known] at reads
      obtain ⟨text, read, reads⟩ := bind_eq_ok.mp reads
      obtain rfl := Except.ok.inj reads
      have there : files.readText task.source = .ok text := by
        cases held : files.readText task.source with
        | error problem => simp [held, Except.mapError] at read
        | ok own => simpa [held, Except.mapError] using read
      obtain ⟨rendered, included, headers, blocks, follows, passed, heads, rfl⟩ :=
        Source.expand_eq_ok.mp expands
      exact ⟨stage, text, rendered, headers, included, ⟨known, there, blocks, passed, heads⟩, follows,
        rfl⟩
  · rintro ⟨stage, text, rendered, headers, included, parts, follows, rfl⟩
    refine bind_eq_ok.mpr ⟨⟨files.absolute task.source, text, stage⟩, ?_, ?_⟩
    · rw [Source.value_read files parts.known, parts.read]
      rfl
    · exact Source.expand_eq_ok.mpr ⟨rendered, included, headers, parts.blocks, follows, parts.passed,
        parts.heads, rfl⟩

namespace Composed

theorem of_expand {expansion : Expanded}
    (expands : ((task.expand files).run files).value = .ok expansion) :
    task.Composed task.settings.glProfile files expansion.text := by
  obtain ⟨stage, source, rendered, headers, _, parts, _, rfl⟩ := expand_eq_ok.mp expands
  exact ⟨stage, source, rendered, headers, parts, rfl⟩

theorem unique {other : Text} (composed : task.Composed profile files text)
    (composedToo : task.Composed profile files other) : text = other := by
  obtain ⟨stage, source, rendered, headers, parts, rfl⟩ := composed
  obtain ⟨stageToo, sourceToo, renderedToo, headersToo, partsToo, rfl⟩ := composedToo
  obtain rfl := Option.some.inj (parts.known.symm.trans partsToo.known)
  obtain rfl := Except.ok.inj (parts.read.symm.trans partsToo.read)
  obtain rfl := Except.ok.inj (parts.blocks.symm.trans partsToo.blocks)
  obtain rfl := Except.ok.inj (parts.heads.symm.trans partsToo.heads)
  rfl

/-- The text stays as it is while the texts of the source and the headers do. -/
theorem congr (composed : task.Composed profile first text)
    (home : second.workingDirectory = first.workingDirectory)
    (same : ∀ path ∈ task.source :: task.headers, ∀ text, first.readText path = .ok text →
      second.readText path = .ok text) : task.Composed profile second text := by
  obtain ⟨stage, source, rendered, headers, parts, rfl⟩ := composed
  have absolute : second.absolute = first.absolute := FileSystem.absolute_congr home
  refine ⟨stage, source, rendered, headers, ⟨parts.known, ?_, ?_, ?_, ?_⟩, rfl⟩
  · exact same _ List.mem_cons_self _ parts.read
  · rw [absolute]
    exact parts.blocks
  · rw [absolute]
    exact parts.passed
  · exact Expanding.value_mapM_readText parts.heads fun path member =>
      same path (List.mem_cons_of_mem _ member)

end Composed

/-- The expanded artifact holds the text that the source and the headers make. -/
def Matches (task : Task) (profile : Text) (files : FileSystem) : Prop :=
  ∃ file text, files.file? task.artifacts.expanded = some file ∧ file.contents = .text text ∧
    task.Composed profile files text

/-- The source or a header is as new as the expanded artifact. -/
def Behind (task : Task) (files : FileSystem) : Prop :=
  ∃ path ∈ task.source :: task.headers, ∃ file, files.file? path = some file ∧
    ∀ made, files.file? task.artifacts.expanded = some made → made.modified ≤ file.modified

/-- There is no artifact, or the expanded one is as it should be, or its time shows that it need not
be. -/
def Faithful (task : Task) (profile : Text) (files : FileSystem) : Prop :=
  task.Clear files ∨ task.Settled files ∧ (task.Matches profile files ∨ task.Behind files)

/-- No other artifact is the same file as the expanded one. -/
def Own (task : Task) (files : FileSystem) : Prop :=
  ∀ stage : ToolStage, ∀ location, files.outlet? (stage.output task.artifacts) = some location →
    files.outlet? task.artifacts.expanded ≠ some location

/-- The absolute forms of the source and the headers are not too long. -/
def Short (task : Task) (files : FileSystem) : Prop :=
  ∀ path ∈ task.source :: task.headers,
    Text.byteLength (files.absolute path).text < FileSystem.maximalPath

theorem Own.framed (own : task.Own first) (same : first.Framed second) : task.Own second := by
  intro stage location leads
  rw [← same.outlet?] at leads ⊢
  exact own stage location leads

theorem Short.home (short : task.Short first)
    (home : second.workingDirectory = first.workingDirectory) : task.Short second := by
  intro path member
  rw [FileSystem.absolute_congr home]
  exact short path member

private theorem plain_child (base : Path) {name : String} (last : Char)
    (ends : name.toList.getLast? = some last) (letter : last ≠ '/')
    (relative : (Path.of name).isAbsolute = false) :
    (base.child name).text ≠ [] ∧ (base.child name).endsInSlash = false := by
  obtain ⟨front, text⟩ : ∃ front, (base.child name).text = front ++ name.toList := by
    unfold Path.child Path.join
    rw [relative, if_neg Bool.false_ne_true]
    split
    · exact ⟨base.text, rfl⟩
    · exact ⟨base.text ++ ['/'], by simp [Path.of]⟩
  have filled : name.toList ≠ [] := by
    intro empty
    rw [empty] at ends
    cases ends
  rw [Path.endsInSlash, text, List.getLast?_append_of_ne_nil _ filled, ends]
  refine ⟨by simp [filled], ?_⟩
  simpa using letter

theorem plain_headers (task : Task) :
    ∀ path ∈ task.headers, path.text ≠ [] ∧ path.endsInSlash = false := by
  intro path member
  simp only [headers, SourceTree.headers, List.mem_cons, List.not_mem_nil, or_false] at member
  rcases member with rfl | rfl
  · exact plain_child _ 'l' (by decide) (by decide) (by decide)
  · cases task.command.variant <;> exact plain_child _ 'l' (by decide) (by decide) (by decide)

section

variable (home : files.Home) (short : task.Short files)
include home short

theorem listed_of_found {path : Path} {location : Location} (found : task.discovered files = .ok set)
    (member : path ∈ task.source :: task.headers) (leads : files.outlet? path = some location) :
    ∃ listed ∈ set.paths, files.outlet? listed = some location := by
  rcases List.mem_cons.mp member with rfl | header
  · obtain ⟨text, included, read, _⟩ := discover_eq_ok.mp found
    have reads : task.source ∈
        (discover files task.searchPath task.source task.headers).reads files := by
      rw [reads_discover read]
      exact List.mem_cons_self
    exact listed_of_read home (short _ List.mem_cons_self) found reads leads
  · exact listed_of_header home short (plain_headers task) found header leads

/-- The source and the headers lead to no artifact. -/
theorem Knows.free {path artifact : Path} {location : Location} (knows : task.Knows files cache set)
    (member : path ∈ task.source :: task.headers) (written : artifact ∈ task.artifacts.all)
    (leads : files.outlet? artifact = some location) : files.outlet? path ≠ some location := by
  intro same
  obtain ⟨listed, inside, leadsToo⟩ := listed_of_found home short knows.found member same
  exact knows.apart set knows.found listed (.listed knows.found inside) artifact written location
    leads leadsToo

/-- What is behind is stale. -/
theorem Behind.isStale (behind : task.Behind files) (found : task.discovered files = .ok set) :
    task.isStale files set = true := by
  obtain ⟨path, member, file, there, older⟩ := behind
  obtain ⟨location, leads, own⟩ := FileSystem.file?_eq_some.mp there
  obtain ⟨listed, inside, leadsToo⟩ := listed_of_found home short found member leads
  by_contra current
  rw [Bool.not_eq_true, Task.isStale, Bool.or_eq_false_iff,
    Freshness.filesStale_eq_false_iff] at current
  obtain ⟨made, present, newer⟩ := current.2.2 _ (expanded_mem _)
  refine Int.not_lt.mpr (older made present) (newer listed inside file ?_)
  rw [FileSystem.file?_of_outlet? leadsToo, own]

end

/-- Where the artifacts are fresh, the expanded one is as it should be. -/
theorem Faithful.current (faithful : task.Faithful profile files) (home : files.Home)
    (short : task.Short files) (found : task.discovered files = .ok set)
    (current : task.isStale files set = false) : task.Matches profile files := by
  rcases faithful with clear | ⟨_, holds | behind⟩
  · simp [isStale_of_clear clear] at current
  · exact holds
  · simp [behind.isStale home short found] at current

theorem Faithful.prepared (faithful : task.Faithful profile files) :
    task.Faithful profile (task.prepared files) := by
  rcases faithful with clear | ⟨settled, known⟩
  · exact .inl (clear.grown (grown_prepared task files))
  · rw [prepared_of_settled settled]
    exact .inr ⟨settled, known⟩

namespace Matches

theorem retimed {now : Instant} (holds : task.Matches profile first)
    (retimed : FileSystem.Retimed now first second) : task.Matches profile second := by
  obtain ⟨file, text, there, contents, composed⟩ := holds
  have composedToo := composed.congr retimed.framed.home.symm
    fun path _ text read => (retimed.readText_eq_ok path text).mpr read
  rcases retimed.file? task.artifacts.expanded with same | changed
  · exact ⟨file, text, same.trans there, contents, composedToo⟩
  · refine ⟨file.stamped now, text, ?_, contents, composedToo⟩
    rw [changed, there, Option.map_some]

/-- What a tool writes is not the expanded artifact, nor the source or a header. -/
theorem writes {stage : ToolStage} (holds : task.Matches profile first) (home : first.Home)
    (short : task.Short first) (own : task.Own first) (knows : task.Knows first cache set)
    (writes : FileSystem.Writes (stage.output task.artifacts) first second) :
    task.Matches profile second := by
  obtain ⟨file, text, there, contents, composed⟩ := holds
  refine ⟨file, text, ?_, contents, composed.congr writes.framed.home.symm ?_⟩
  · rw [writes.file? (own stage)]
    exact there
  · intro path member text read
    have same := writes.file? fun location => knows.free home short member (output_mem _ _)
    rw [FileSystem.readText_eq_ok] at read ⊢
    rwa [same]

/-- The artifact that is written holds what was to be written. -/
theorem written {now : Instant} (home : first.Home) (short : task.Short first)
    (knows : task.Knows first cache set) (composed : task.Composed profile first text)
    (done : first.write task.artifacts.expanded now (.text text) = .ok second) :
    task.Matches profile second := by
  have writes := FileSystem.writes_of_write done
  obtain ⟨location, leads, rfl⟩ := FileSystem.write_eq_ok.mp done
  have free := FileSystem.free_of_outlet? leads
  refine ⟨_, text, by rw [FileSystem.file?_put free, if_pos leads], rfl,
    composed.congr writes.framed.home.symm fun path member text read => ?_⟩
  have same := writes.file? fun location => knows.free home short member (expanded_mem _)
  rw [FileSystem.readText_eq_ok] at read ⊢
  rwa [same]

end Matches

/-- The expanded artifact was written in a run with this result. -/
def wrote : Except BuildFailure Outcome → Bool
  | .ok .rebuilt | .error (.stageFailed _ _ _) => true
  | _ => false

/-- What is known of the expanded artifact in the course of a run, besides what `Renewing` and
`Tracking` say; `last` is the profile of the run that wrote it before. -/
def Recording (task : Task) (last : Text) (state : BuildState) : Phase → Prop
  | .rediscover | .restore _ | .expand =>
    task.Own state.world.files ∧ task.Faithful last state.world.files
  | .write text => task.Own state.world.files ∧ task.Faithful last state.world.files ∧
    task.Composed task.settings.glProfile state.world.files text
  | .run _ => task.Own state.world.files ∧
    task.Matches task.settings.glProfile state.world.files
  | .refresh => task.Settled state.world.files ∧ task.Matches last state.world.files
  | .finished result =>
    task.Faithful (if wrote result then task.settings.glProfile else last) state.world.files ∧
      (result = .ok .upToDate → task.Settled state.world.files ∧ task.Matches last state.world.files)
  | _ => task.Faithful last state.world.files

private theorem recording_failed {last : Text} {problem : BuildFailure}
    (faithful : task.Faithful last state.world.files)
    (early : wrote (.error problem) = false) :
    task.Recording last state (.finished (.error problem)) :=
  ⟨by rwa [early], fun equal => (nomatch equal)⟩

private theorem recording_stageFailed {last : Text} {stage : ToolStage} {launch : Launch}
    {failure : StageFailure} (settled : task.Settled state.world.files)
    (holds : task.Matches task.settings.glProfile state.world.files) :
    task.Recording last state (.finished (.error (.stageFailed stage launch failure))) :=
  ⟨.inr ⟨settled, .inl holds⟩, fun equal => (nomatch equal)⟩

theorem recording_of_move {begun : FileSystem} {last : Text}
    (apart : task.Apart (task.prepared begun)) (own : task.Own (task.prepared begun))
    (disciplined : task.Disciplined tools) (short : task.Short state.world.files)
    (move : Move task tools phase state next after) (renewing : task.Renewing begun state phase)
    (tracking : task.Tracking state phase) (regular : task.Regular state.world)
    (recording : task.Recording last state phase) : task.Recording last after next := by
  have renewed := renewing_of_move apart disciplined.confined move renewing
  cases move with
  | hit => exact recording
  | miss => exact recording
  | discovered => exact recording
  | undiscovered => exact recording_failed recording rfl
  | store => exact recording
  | fresh current =>
    -- What is known is true here, and the artifact is newer than all of it.
    obtain ⟨settled, set, knows⟩ := tracking.1.knows tracking.2 current
    obtain rfl := Option.some.inj (knows.known.symm.trans tracking.2)
    exact ⟨settled, recording.current regular.home short knows.found current⟩
  | report => exact ⟨recording, fun equal => (nomatch equal)⟩
  | rebuild => exact recording
  | @refreshed _ count files done =>
    have retimed := Freshness.retimed_of_refresh done
    have current : task.Settled files ∧ task.Matches last files :=
      ⟨recording.1.framed retimed.framed, recording.2.retimed retimed⟩
    exact ⟨.inr ⟨current.1, .inl current.2⟩, fun _ => current⟩
  | unrefreshed failed => exact absurd failed Freshness.refresh_ne_error
  | prepared =>
    refine ⟨?_, Faithful.prepared recording⟩
    rw [← show state.world.files = begun from renewing] at own
    exact own
  | unprepared => exact recording_failed (Faithful.prepared recording) rfl
  | rediscovered => exact recording
  | unrediscovered => exact recording_failed recording.2 rfl
  | restore => exact recording
  | expanded done => exact ⟨recording.1, recording.2, .of_expand done⟩
  | unexpanded => exact recording_failed recording.2 rfl
  | written done =>
    obtain ⟨_, set, knows⟩ := renewing
    exact ⟨recording.1.framed (FileSystem.writes_of_write done).framed,
      .written regular.home short knows recording.2.2 done⟩
  | unwritten => exact recording_failed recording.2.1 rfl
  | unstarted => exact recording_stageFailed renewed.1 recording.2
  | exited _ ended =>
    obtain ⟨_, set, knows⟩ := renewing
    exact recording_stageFailed renewed.1
      (recording.2.writes regular.home short recording.1 knows (disciplined.confined _ _ _ _ _ ended))
  | @succeeded _ stage _ _ _ ended =>
    obtain ⟨_, set, knows⟩ := renewing
    have writes := disciplined.confined _ _ _ _ _ ended
    have holds := recording.2.writes regular.home short recording.1 knows writes
    cases stage with
    | crossCompile => exact ⟨.inr ⟨renewed.1, .inl holds⟩, fun equal => (nomatch equal)⟩
    | _ => exact ⟨recording.1.framed writes.framed, holds⟩

theorem workingDirectory_of_move (disciplined : task.Disciplined tools)
    (move : Move task tools phase state next after) :
    after.world.files.workingDirectory = state.world.files.workingDirectory := by
  cases move with
  | @refreshed _ count files done =>
    have retimed := Freshness.retimed_of_refresh done
    exact retimed.framed.home.symm
  | unrefreshed failed => exact absurd failed Freshness.refresh_ne_error
  | prepared => exact (grown_prepared task _).home.symm
  | unprepared => exact (grown_prepared task _).home.symm
  | written done => exact (FileSystem.writes_of_write done).framed.home.symm
  | exited _ ended => exact (disciplined.confined _ _ _ _ _ ended).framed.home.symm
  | succeeded _ ended => exact (disciplined.confined _ _ _ _ _ ended).framed.home.symm
  | _ => rfl

theorem recording_of_process {last : Text} (noFile : state.fileLevel = none)
    (apart : task.Apart (task.prepared state.world.files))
    (own : task.Own (task.prepared state.world.files)) (disciplined : task.Disciplined tools)
    (regular : task.Regular state.world) (short : task.Short state.world.files)
    (sound : task.Sound state.world.files state.cache)
    (faithful : task.Faithful last state.world.files) :
    task.Short (task.process tools state).2.world.files ∧
      task.Recording last (task.process tools state).2 (.finished (task.process tools state).1) := by
  have ends := @complete_induction task tools
    (fun phase now => task.Renewing state.world.files now phase ∧ task.Tracking now phase ∧
      task.Regular now.world ∧ task.Short now.world.files ∧ task.Recording last now phase)
    ?_ .lookup state noFile ⟨rfl, sound, regular, short, faithful⟩
  · exact ends.2.2.2
  · rintro phase now next after move ⟨renewing, tracking, regular, short, recording⟩
    exact ⟨renewing_of_move apart disciplined.confined move renewing,
      tracking_of_move apart disciplined.confined move renewing tracking,
      regular_of_move disciplined move tracking regular,
      short.home (workingDirectory_of_move disciplined move),
      recording_of_move apart own disciplined short move renewing tracking regular recording⟩

/-- Where the source or a header is edited, it is as new as the expanded artifact; elsewhere the text
stays as it is. -/
theorem Faithful.edited {path : Path} {contents : Contents} {file : File} {world : World}
    (faithful : task.Faithful profile world.files) (past : world.Past task.artifacts.all)
    (there : world.files.file? path = some file)
    (other : ∀ artifact ∈ task.artifacts.all, ∀ location,
      world.files.outlet? path = some location → world.files.outlet? artifact ≠ some location) :
    task.Faithful profile (world.write path contents).2.files := by
  obtain ⟨location, leads, found⟩ := FileSystem.file?_eq_some.mp there
  have free := FileSystem.free_of_outlet? leads
  have done : world.files.write path world.now contents =
      .ok (world.files.put location (.file { file with contents, modified := world.now })) :=
    FileSystem.write_eq_ok.mpr ⟨location, leads, by rw [found]; rfl⟩
  have framed : world.files.Framed (world.files.put location
      (.file { file with contents, modified := world.now })) := .put free _
  have expanded : (world.files.put location (.file { file with contents, modified := world.now })).file?
      task.artifacts.expanded = world.files.file? task.artifacts.expanded := by
    rw [FileSystem.file?_put free, if_neg (other _ (expanded_mem _) location leads)]
  rw [World.write, World.change, done]
  rcases faithful with clear | ⟨settled, known⟩
  · exact .inl (clear.grown (.put_file found free _))
  · refine .inr ⟨settled.framed framed, ?_⟩
    by_cases edited : ∃ own ∈ task.source :: task.headers, world.files.outlet? own = some location
    · obtain ⟨own, member, leadsToo⟩ := edited
      refine .inr ⟨own, member, { file with contents, modified := world.now }, ?_, ?_⟩
      · change (world.files.put location _).file? own = _
        rw [FileSystem.file?_put free, if_pos leadsToo]
      · intro made present
        exact past _ (expanded_mem _) made (expanded.symm.trans present)
    · have apart : ∀ own ∈ task.source :: task.headers, (world.files.put location
          (.file { file with contents, modified := world.now })).file? own =
            world.files.file? own := by
        intro own member
        rw [FileSystem.file?_put free, if_neg fun leadsToo => edited ⟨own, member, leadsToo⟩]
      rcases known with ⟨old, text, present, holds, composed⟩ | ⟨own, member, old, present, older⟩
      · refine .inl ⟨old, text, expanded.trans present, holds, composed.congr rfl ?_⟩
        intro own member text read
        rw [FileSystem.readText_eq_ok] at read ⊢
        rwa [← apart own member] at read
      · exact .inr ⟨own, member, old, (apart own member).trans present,
          fun made found => older made (expanded.symm.trans found)⟩

/-- A history in which it is noted under which profile the expanded artifact was written last. -/
inductive Chronicle (task : Task) (begun : BuildState) : Text → BuildState → Prop where
  | start (last : Text) : Chronicle task begun last begun
  | edit {last : Text} {state : BuildState} {path : Path} {file : File} (contents : Contents)
      (earlier : Chronicle task begun last state)
      (there : state.world.files.file? path = some file)
      (other : ∀ artifact ∈ task.artifacts.all, ∀ location,
        state.world.files.outlet? path = some location →
          state.world.files.outlet? artifact ≠ some location) :
      Chronicle task begun last { state with world := (state.world.write path contents).2 }
  | run {last : Text} {state : BuildState} {tools : Tools} (force dryRun : Bool) (profile : Text)
      (earlier : Chronicle task begun last state)
      (apart : task.Apart (task.prepared state.world.files))
      (own : task.Own (task.prepared state.world.files))
      (disciplined : task.Disciplined tools) :
      Chronicle task begun
        (if wrote ((task.again force dryRun profile).process tools state).1 then profile else last)
        ((task.again force dryRun profile).process tools state).2

theorem Chronicle.history {begun : BuildState} {last : Text}
    (chronicle : task.Chronicle begun last state) : task.History begun state := by
  induction chronicle with
  | start => exact .start
  | edit contents earlier there other ih => exact .edit contents ih there other
  | run force dryRun profile earlier apart own disciplined ih =>
    exact .run force dryRun profile ih apart disciplined

section

variable {force dryRun : Bool} {other : Text}

theorem composed_again :
    (task.again force dryRun other).Composed profile files text ↔
      task.Composed profile files text := by
  constructor
  · rintro ⟨stage, source, rendered, headers, parts, same⟩
    exact ⟨stage, source, rendered, headers,
      ⟨parts.known, parts.read, parts.blocks, parts.passed, parts.heads⟩, same⟩
  · rintro ⟨stage, source, rendered, headers, parts, same⟩
    exact ⟨stage, source, rendered, headers,
      ⟨parts.known, parts.read, parts.blocks, parts.passed, parts.heads⟩, same⟩

theorem matches_again :
    (task.again force dryRun other).Matches profile files ↔ task.Matches profile files := by
  unfold Matches
  simp only [composed_again]
  exact Iff.rfl

theorem faithful_again :
    (task.again force dryRun other).Faithful profile files ↔ task.Faithful profile files := by
  unfold Faithful
  rw [matches_again]
  exact Iff.rfl

end

private theorem recorded_of_run {last : Text} {force dryRun : Bool} (noFile : state.fileLevel = none)
    (apart : task.Apart (task.prepared state.world.files))
    (own : task.Own (task.prepared state.world.files)) (disciplined : task.Disciplined tools)
    (regular : task.Regular state.world) (short : task.Short state.world.files)
    (sound : task.Sound state.world.files state.cache)
    (faithful : task.Faithful last state.world.files) :
    let ended := (task.again force dryRun profile).process tools state
    task.Short ended.2.world.files ∧
      task.Faithful (if wrote ended.1 then profile else last) ended.2.world.files ∧
      (ended.1 = .ok .upToDate →
        task.Settled ended.2.world.files ∧ task.Matches last ended.2.world.files) := by
  obtain ⟨short, faithful, current⟩ := @recording_of_process (task.again force dryRun profile) tools
    state last noFile apart own ⟨disciplined.confined, disciplined.stamped⟩
    (regular_again.mpr regular) short (sound_again.mpr sound) (faithful_again.mpr faithful)
  exact ⟨short, faithful_again.mp faithful,
    fun fresh => (current fresh).imp_right matches_again.mp⟩

theorem Chronicle.faithful {begun : BuildState} {last : Text}
    (chronicle : task.Chronicle begun last state) (begins : task.Begins begun)
    (short : task.Short begun.world.files) :
    task.Short state.world.files ∧ task.Faithful last state.world.files := by
  have sound {last : Text} {state : BuildState} (chronicle : task.Chronicle begun last state) :=
    chronicle.history.sound begins (short _ List.mem_cons_self)
  induction chronicle with
  | start last => exact ⟨short, .inl begins.clear⟩
  | @edit last state path file contents earlier there other ih =>
    obtain ⟨_, regular, _⟩ := sound earlier
    refine ⟨ih.1.home ?_, ih.2.edited regular.past there other⟩
    change (state.world.write path contents).2.files.workingDirectory = _
    unfold World.write World.change
    split
    · exact (FileSystem.writes_of_write ‹_›).framed.home.symm
    · rfl
  | @run last state tools force dryRun profile earlier apart own disciplined ih =>
    obtain ⟨noFile, regular, known⟩ := sound earlier
    obtain ⟨short, faithful, _⟩ :=
      recorded_of_run noFile apart own disciplined regular ih.1 known ih.2
    exact ⟨short, faithful⟩

/-- What a run can write as expanded text, when the directory of the artifacts is there. -/
theorem composed_of_comes {later : BuildState} (settled : task.Settled state.world.files)
    (noFile : state.fileLevel = none) (comes : Comes task tools state (.write text) later) :
    task.Composed task.settings.glProfile state.world.files text := by
  have known := comes.along (motive := fun phase now => match phase with
    | .lookup | .discover | .store _ | .judge _ | .prepare | .rediscover | .restore _ | .expand =>
      now.world.files = state.world.files
    | .write text => task.Composed task.settings.glProfile state.world.files text
    | _ => True) noFile rfl ?_
  · exact known.2
  · intro phase now next after move same
    cases move with
    | hit => exact same
    | miss => exact same
    | discovered => exact same
    | store => exact same
    | rebuild => exact same
    | prepared =>
      dsimp only at same ⊢
      rw [same, prepared_of_settled settled]
    | rediscovered => exact same
    | restore => exact same
    | expanded done =>
      dsimp only at same ⊢
      rw [same] at done
      exact .of_expand done
    | @succeeded _ stage => cases stage <;> trivial
    | _ => trivial

theorem comes_of_expand {expansion : Expanded} (forced : task.settings.force = true)
    (wet : task.settings.dryRun = false) (settled : task.Settled state.world.files)
    (noFile : state.fileLevel = none) (known : state.cache.find? task.key = some set)
    (found : task.discovered state.world.files = .ok set)
    (expands : ((task.expand state.world.files).run state.world.files).value = .ok expansion) :
    ∃ later, Comes task tools state (.write expansion.text) later := by
  have stale : task.isStale state.world.files set = true := by simp [isStale, forced]
  have made : ∀ parent, task.outputBase.parent? = some parent →
      (state.world.files.makeDirectories parent).1 = .ok () := by
    intro parent top
    rw [FileSystem.makeDirectories_of_settled (settled parent top)]
  have prepares := @Move.prepared task tools state.quiet made
  have files : task.prepared state.quiet.world.files = state.quiet.world.files :=
    prepared_of_settled settled
  rw [files] at prepares
  obtain ⟨_, comes, same⟩ := (@Comes.start task tools state).move noFile rfl (.hit known)
  obtain ⟨_, comes, same⟩ := comes.move noFile same (.rebuild stale wet)
  obtain ⟨_, comes, same⟩ := comes.move noFile same prepares
  obtain ⟨_, comes, same⟩ := comes.move noFile same (.rediscovered found)
  obtain ⟨_, comes, same⟩ := comes.move noFile same (.restore set)
  obtain ⟨later, comes, _⟩ := comes.move noFile same (.expanded expands)
  exact ⟨later, comes⟩

/-- Where the markers of the source stand apart, the text that the parts make is that of an
expansion. -/
theorem Composed.expands {marks : List Mark}
    (composed : task.Composed task.settings.glProfile files text)
    (found : task.discovered files = .ok set)
    (read : files.readText task.source = .ok (Mark.flat marks)) (legible : Mark.Legible marks)
    (separate : Mark.Separate marks) :
    ∃ expansion, ((task.expand files).run files).value = .ok expansion ∧ expansion.text = text := by
  obtain ⟨stage, source, rendered, headers, parts, rfl⟩ := composed
  obtain rfl := Except.ok.inj (parts.read.symm.trans read)
  obtain ⟨own, listed, there, follows, _⟩ := discover_eq_ok.mp found
  obtain rfl := Except.ok.inj (there.symm.trans read)
  have agree := @Source.collect_settled files task.searchPath marks _ rendered legible separate
    parts.blocks parts.passed task.source
  change _ = (Include.outcome files task.searchPath (Errand.ofText task.source (Mark.flat marks))
    PathSet.empty).toOption at agree
  rw [follows] at agree
  cases collected : ((Include.collect files task.searchPath (files.absolute task.source)
      (Source.settled rendered)).run files).value with
  | error problem => simp [collected, Except.toOption] at agree
  | ok included =>
    exact ⟨_, expand_eq_ok.mpr ⟨stage, _, rendered, headers, included, parts, collected, rfl⟩, rfl⟩

/-- When a run finds the artifacts up to date, the expanded one holds what a forced run would write
at that moment under the profile under which it was written last: nothing else, and exactly this
where the markers of the source stand apart. -/
theorem written_of_upToDate {begun : BuildState} {last : Text} (begins : task.Begins begun)
    (short : task.Short begun.world.files) (chronicle : task.Chronicle begun last state)
    (force dryRun : Bool) (profile : Text) (apart : task.Apart (task.prepared state.world.files))
    (own : task.Own (task.prepared state.world.files)) (disciplined : task.Disciplined tools)
    (current : ((task.again force dryRun profile).process tools state).1 = .ok .upToDate) :
    let ended := ((task.again force dryRun profile).process tools state).2
    ∃ file text, ended.world.files.file? task.artifacts.expanded = some file ∧
      file.contents = .text text ∧
      (∀ tools written later,
        Comes (task.again true false last) tools ended (.write written) later → written = text) ∧
      ∀ marks, ended.world.files.readText task.source = .ok (Mark.flat marks) →
        Mark.Legible marks → Mark.Separate marks → ∀ tools, ∃ later,
          Comes (task.again true false last) tools ended (.write text) later := by
  intro ended
  obtain ⟨noFile, regular, sound⟩ := chronicle.history.sound begins (short _ List.mem_cons_self)
  obtain ⟨shortToo, faithful⟩ := chronicle.faithful begins short
  obtain ⟨settled, file, text, there, contents, composed⟩ :=
    (recorded_of_run noFile apart own disciplined regular shortToo sound faithful).2.2 current
  obtain ⟨_, _, knowing⟩ := tracked_of_run noFile apart disciplined regular sound
  obtain ⟨set, knows⟩ := knowing current
  have quiet : ended.fileLevel = none := fileLevel_process noFile
  refine ⟨file, text, there, contents, fun tools written later comes => ?_,
    fun marks read legible separate tools => ?_⟩
  · have made : (task.again true false last).Composed last ended.world.files written :=
      composed_of_comes settled quiet comes
    exact (composed_again.mp made).unique composed
  · have again : (task.again true false last).Composed last ended.world.files text :=
      composed_again.mpr composed
    obtain ⟨expansion, expands, rfl⟩ := again.expands knows.found read legible separate
    exact comes_of_expand rfl rfl settled quiet knows.known knows.found expands

private theorem short_site : nearTask.Short siteState.world.files := by
  intro path member
  revert path
  decide

private theorem own_site {files : FileSystem} (framed : (siteFiles []).Framed files) :
    nearTask.Own files := by
  intro stage location leads same
  rw [← framed.outlet?] at leads same
  have expanded : (siteFiles []).outlet? nearTask.artifacts.expanded = some ["o".toList] := by cbv
  obtain rfl := Option.some.inj (expanded.symm.trans same)
  have others : ToolStage.all.map (fun stage =>
      (siteFiles []).outlet? (stage.output nearTask.artifacts)) = [some ["o.spv".toList],
        some ["o.opt.spv".toList], some ["o.json".toList], some ["o.glsl".toList]] := by cbv
  have listed : stage ∈ ToolStage.all := by cases stage <;> simp [ToolStage.all]
  have member : some ["o".toList] ∈ ToolStage.all.map (fun stage =>
      (siteFiles []).outlet? (stage.output nearTask.artifacts)) :=
    List.mem_map.mpr ⟨stage, listed, leads⟩
  rw [others] at member
  revert member
  decide

private theorem own_near : nearTask.Own (nearTask.prepared siteState.world.files) := by
  rw [show siteState.world.files = siteFiles [] from rfl, nearTask, prepared_site]
  exact own_site (.refl _)

private theorem own_near_built : nearTask.Own (nearTask.prepared nearState.world.files) := by
  rw [files_near, nearTask, prepared_built]
  exact own_site (framed_built _)

private theorem chronicle_near : nearTask.Chronicle siteState [] nearState := by
  have run : nearTask.Chronicle siteState _ nearState :=
    .run false false [] (.start []) apart_near own_near disciplined_obedient
  rwa [ite_self] at run

/-- After a run that rebuilt the artifacts, the next one finds what a forced run would write. -/
theorem written_of_upToDate_rebuilt :
    let ended := ((nearTask.again false false []).process nearTools nearState).2
    ∃ file text, ended.world.files.file? nearTask.artifacts.expanded = some file ∧
      file.contents = .text text ∧
      (∀ tools written later, Comes (nearTask.again true false []) tools ended (.write written)
        later → written = text) ∧
      ∀ marks, ended.world.files.readText nearTask.source = .ok (Mark.flat marks) →
        Mark.Legible marks → Mark.Separate marks → ∀ tools, ∃ later,
          Comes (nearTask.again true false []) tools ended (.write text) later :=
  written_of_upToDate (begins_site _ _) short_site chronicle_near false false [] apart_near_built
    own_near_built disciplined_obedient (upToDate_near []).1

/-- Another run under another profile finds the artifacts up to date too, and leaves a text that a
forced run would not write. -/
theorem written_ne_of_upToDate_profile :
    let later := nearTask.again false false "P".toList
    let ended := (later.process nearTools nearState).2
    nearTask.Begins siteState ∧ nearTask.Chronicle siteState [] nearState ∧
      nearTask.Apart (nearTask.prepared nearState.world.files) ∧ nearTask.Disciplined nearTools ∧
      (later.process nearTools nearState).1 = .ok .upToDate ∧
      ∃ file written after, ended.world.files.file? nearTask.artifacts.expanded = some file ∧
        Comes (nearTask.again true false "P".toList) nearTools ended (.write written) after ∧
        file.contents ≠ .text written := by
  intro later ended
  obtain ⟨current, cache, quiet, retimed⟩ := upToDate_near "P".toList
  refine ⟨begins_site _ _, chronicle_near, apart_near_built, disciplined_obedient, current, ?_⟩
  have framed : (siteFiles []).Framed ended.world.files := (framed_built _).trans retimed.framed
  have held : ∀ text, (siteBuilt text).file? nearTask.artifacts.expanded =
      some ⟨.text text, 10, false, false⟩ := by
    intro text
    cbv
  have blank : ∀ text, (siteBuilt text).readText nearTask.source = .ok [] := by
    intro text
    cbv
  have heads : ∀ text, ((nearTask.headers.mapM Expanding.readText).run (siteBuilt text)).value =
      .ok [[], []] := by
    intro text
    cbv
  have settled : nearTask.Settled (siteFiles []) := by
    intro parent top
    have root : nearTask.outputBase.parent? = some (Path.of "..") := by cbv
    obtain rfl := Option.some.inj (root.symm.trans top)
    exact .inr (.inr (by cbv))
  have read := (retimed.readText_eq_ok nearTask.source []).mpr (blank _)
  have found : nearTask.discovered ended.world.files = .ok (PathSet.empty.withSource (siteFiles [])
      nearTask.source nearTask.headers) := by
    rw [discovered_empty read, PathSet.withSource_congr framed.home]
  obtain ⟨set, expands⟩ := @value_expand_empty (nearTask.again true false "P".toList)
    ended.world.files .vertex [[], []] (@known_site []) read
    (Expanding.value_mapM_readText (heads _) fun path _ text =>
      (retimed.readText_eq_ok path text).mpr)
  have known : ended.cache.find? nearTask.key = some _ := cache ▸ known_near
  obtain ⟨after, comes⟩ := @comes_of_expand (nearTask.again true false "P".toList) nearTools _
    ended _ rfl rfl (settled.framed framed) quiet known found expands
  have differ : siteText [] ≠ siteText "P".toList := by decide
  rcases retimed.file? nearTask.artifacts.expanded with same | stamped
  · exact ⟨_, _, after, same.trans (held _), comes, fun equal => differ (Contents.text.inj equal)⟩
  · rw [held] at stamped
    exact ⟨_, _, after, stamped, comes, fun equal => differ (Contents.text.inj equal)⟩

end Task

end ShaderBuild
