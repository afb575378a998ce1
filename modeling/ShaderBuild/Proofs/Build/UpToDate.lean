import Mathlib
import ShaderBuild.Proofs.Build.Course
import ShaderBuild.Proofs.Build.History
/-!
What a run knows that takes the artifacts for up to date: the dependencies among the files as they
are then, unless the absolute path of the template is too long to be looked at.
-/
namespace ShaderBuild

/-- The files with an artifact in the root directory. -/
def FileSystem.made (files : FileSystem) (name : String) (text : Text) (time : Instant) :
    FileSystem :=
  files.put [name.toList] (.file ⟨.text text, time, false, false⟩)

namespace Task

variable {task : Task} {state : BuildState} {set : PathSet} {tools : Tools} {files : FileSystem}

/-- When a run finds the artifacts up to date, the dependencies known for the command are those that
a search would find among the files at that moment. -/
theorem discovered_of_upToDate {begun : BuildState} (begins : task.Begins begun)
    (short : Text.byteLength (begun.world.files.absolute task.source).text <
      FileSystem.maximalPath)
    (history : task.History begun state) (force dryRun : Bool) (profile : Text)
    (apart : task.Apart (task.prepared state.world.files)) (disciplined : task.Disciplined tools)
    (current : ((task.again force dryRun profile).process tools state).1 = .ok .upToDate) :
    ∃ set, ((task.again force dryRun profile).process tools state).2.cache.find? task.key =
        some set ∧
      task.discovered ((task.again force dryRun profile).process tools state).2.world.files =
        .ok set := by
  obtain ⟨noFile, regular, sound⟩ := history.sound begins short
  obtain ⟨_, _, known⟩ := tracked_of_run noFile apart disciplined regular sound
  obtain ⟨set, knows⟩ := known current
  exact ⟨set, knows.known, knows.found⟩

/-- A template, its headers and the tools; the directory of the artifacts is the root. -/
def siteFiles (text : Text) : FileSystem where
  entries :=
    let headers := ["libraries".toList, "shaders".toList, "headers".toList]
    let file (text : Text) (executable : Bool) : Node := .file ⟨.text text, 5, executable, false⟩
    [(["aa.slv".toList], file text false), (headers.take 1, .directory),
      (headers.take 2, .directory), (headers, .directory), (headers ++ ["410".toList], .directory),
      (headers ++ ["410".toList, "header.glsl".toList], file [] false),
      (headers ++ ["mono.glsl".toList], file [] false), (["tools".toList], .directory),
      (["tools".toList, "glslangValidator".toList], file [] true),
      (["tools".toList, "spirv-opt".toList], file [] true),
      (["tools".toList, "spirv-cross".toList], file [] true)]
  workingLocation := []
  workingDirectory := Path.of "/"

def siteState : BuildState :=
  ⟨⟨siteFiles [], fun tick => tick + 10, 0⟩, .empty, [], [], none⟩

/-- The files once the artifacts are made, in order. -/
def siteBuilt (expanded : Text) : FileSystem :=
  (((((siteFiles []).made "o" expanded 10).made "o.spv" [] 11).made "o.opt.spv" [] 12).made
    "o.json" [] 13).made "o.glsl" [] 14

/-- A command on the template at a path, with the root as the parent of the working directory. -/
def siteTask (source : Path) (profile : Text) : Task where
  settings := { RunSettings.ofPlaces (Path.of "/list") (Path.of "/tools") (Path.of "/build")
    (Path.of "..") with glProfile := profile }
  command := ⟨"410".toList, .mono, source, Path.of "o", []⟩

def siteText (profile : Text) : Text :=
  "\n\n#define GPU_VERTEX_SHADER\n".toList ++ defineLine "GLPROFILE".toList profile ++ ['\n']

theorem clear_site (source : Path) (profile : Text) :
    (siteTask source profile).Clear (siteFiles []) := by
  intro grown more artifact member
  have vacant : ∀ path ∈ (siteTask source profile).artifacts.all, ∃ location,
      (siteFiles []).locate .target path = .ok (.vacant location) := by
    intro path listed
    simp only [Artifacts.all, List.mem_cons, List.not_mem_nil, or_false] at listed
    rcases listed with rfl | rfl | rfl | rfl | rfl
    · exact ⟨["o".toList], by cbv⟩
    · exact ⟨["o.spv".toList], by cbv⟩
    · exact ⟨["o.opt.spv".toList], by cbv⟩
    · exact ⟨["o.json".toList], by cbv⟩
    · exact ⟨["o.glsl".toList], by cbv⟩
  obtain ⟨location, found⟩ := vacant artifact member
  exact more.file?_vacant found

private theorem moves_site {source : Path} {profile text : Text} (cache : DependencyStore) :
    Moves (siteTask source profile) ((siteTask source profile).obedient fun _ => .exited 0) (.run .compile)
      { siteState with
        world := siteState.world.after ((siteFiles []).made "o" text 10)
        cache := cache } (.ok .rebuilt)
      { siteState with
        world := ⟨siteBuilt text, siteState.world.clock, 5⟩
        cache := cache
        launches := ToolStage.all.map (siteTask source profile).launchOf } := by
  refine moves_of_obedient (((siteFiles []).made "o" text 10).made "o.spv" [] 11)
    (by cbv) rfl (by cbv) ?_
  refine moves_of_obedient ((((siteFiles []).made "o" text 10).made "o.spv" [] 11).made
    "o.opt.spv" [] 12) (by cbv) rfl (by cbv) ?_
  refine moves_of_obedient (((((siteFiles []).made "o" text 10).made "o.spv" [] 11).made
    "o.opt.spv" [] 12).made "o.json" [] 13) (by cbv) rfl (by cbv) ?_
  refine moves_of_obedient (siteBuilt text) (by cbv) rfl (by cbv) ?_
  exact .done _ _

/-- Where the template can be read, a first run comes to the tools, whatever these do. -/
theorem process_site_of {source : Path} {profile : Text} {result : Except BuildFailure Outcome}
    {after : BuildState}
    (known : ShaderStage.ofPath? (siteTask source profile).source = some .vertex)
    (read : (siteFiles []).readText (siteTask source profile).source = .ok [])
    (rest : Moves (siteTask source profile) tools (.run .compile)
      { siteState with
        world := siteState.world.after ((siteFiles []).made "o" (siteText profile) 10)
        cache := (DependencyStore.empty.insert (siteTask source profile).key
          (PathSet.empty.withSource (siteFiles []) (siteTask source profile).source
            (siteTask source profile).headers)).insert (siteTask source profile).key
          (PathSet.empty.withSource (siteFiles []) (siteTask source profile).source
            (siteTask source profile).headers) } result after) :
    ((siteTask source profile).process tools siteState).1 = result ∧
      ((siteTask source profile).process tools siteState).2.quiet = after := by
  have found := discovered_empty read
  have headers : (((siteTask source profile).headers.mapM Expanding.readText).run
      (siteFiles [])).value = .ok [[], []] := by cbv
  obtain ⟨set, expands⟩ := value_expand_empty known read headers
  have settled : (siteTask source profile).Settled (siteFiles []) := by
    intro parent top
    have root : (siteTask source profile).outputBase.parent? = some (Path.of "..") := by cbv
    obtain rfl := Option.some.inj (root.symm.trans top)
    exact .inr (.inr (by cbv))
  have stale : (siteTask source profile).isStale (siteFiles []) (PathSet.empty.withSource
      (siteFiles []) (siteTask source profile).source (siteTask source profile).headers) = true :=
    isStale_of_clear (clear_site source profile)
  have written : (siteFiles []).write (siteTask source profile).artifacts.expanded
      siteState.world.now (.text (siteText profile)) = 
        .ok ((siteFiles []).made "o" (siteText profile) 10) := by
    generalize siteText profile = text
    cbv
  exact @Moves.complete _ _ .lookup siteState _ _
    (moves_of_stale rfl found stale rfl settled expands written rest) rfl

theorem process_site {source : Path} {profile : Text}
    (known : ShaderStage.ofPath? (siteTask source profile).source = some .vertex)
    (read : (siteFiles []).readText (siteTask source profile).source = .ok []) :
    ((siteTask source profile).process ((siteTask source profile).obedient fun _ => .exited 0)
        siteState).1 = .ok .rebuilt ∧
      ((siteTask source profile).process ((siteTask source profile).obedient fun _ => .exited 0)
        siteState).2.quiet = { siteState with
          world := ⟨siteBuilt (siteText profile), siteState.world.clock, 5⟩
          cache := (DependencyStore.empty.insert (siteTask source profile).key
            (PathSet.empty.withSource (siteFiles []) (siteTask source profile).source
              (siteTask source profile).headers)).insert (siteTask source profile).key
            (PathSet.empty.withSource (siteFiles []) (siteTask source profile).source
              (siteTask source profile).headers)
          launches := ToolStage.all.map (siteTask source profile).launchOf } :=
  process_site_of known read (moves_site _)

theorem begins_site (source : Path) (profile : Text) :
    (siteTask source profile).Begins siteState := by
  refine ⟨rfl, ?_, ⟨by cbv, by simp [siteState, siteFiles], fun location within => ?_⟩,
    clear_site source profile⟩
  · intro first second earlier
    simpa [siteState] using earlier
  · rw [List.prefix_nil.mp within]
    rfl

theorem known_site {profile : Text} :
    ShaderStage.ofPath? (siteTask (Path.of "aa.slv") profile).source = some .vertex := by cbv

theorem read_site {profile : Text} :
    (siteFiles []).readText (siteTask (Path.of "aa.slv") profile).source = .ok [] := by cbv

theorem prepared_site {source : Path} {profile : Text} :
    (siteTask source profile).prepared (siteFiles []) = siteFiles [] := by cbv

theorem prepared_built {source : Path} {profile text : Text} :
    (siteTask source profile).prepared (siteBuilt text) = siteBuilt text := by cbv

private theorem apart_site {profile : Text} :
    (siteTask (Path.of "aa.slv") profile).Apart (siteFiles []) :=
  apart_empty read_site (by cbv)

private theorem apart_built {profile text : Text} :
    (siteTask (Path.of "aa.slv") profile).Apart (siteBuilt text) :=
  apart_empty (by cbv) (by cbv)

private theorem times_built {source : Path} {profile text : Text} :
    (siteTask source profile).artifacts.all.map (siteBuilt text).modified? =
      [some 10, some 11, some 12, some 13, some 14] := by cbv

private theorem isStale_site {source : Path} {profile : Text}
    (times : (siteTask source profile).artifacts.all.map files.modified? =
      [some 10, some 11, some 12, some 13, some 14])
    (old : ∀ path ∈ set.paths, ∀ time, files.modified? path = some time → time ≤ 5) :
    (siteTask source profile).isStale files set = false := by
  have before : Freshness.AllBefore (set.paths.map files.modified?) 10 := by
    intro time listed
    obtain ⟨path, member, shown⟩ := List.mem_map.mp listed
    exact Int.lt_of_le_of_lt (old path member time shown) (by decide)
  rw [isStale, Bool.or_eq_false_iff, Freshness.filesStale, times, Freshness.stale_eq_false_iff]
  refine ⟨rfl, by simp, fun output member => ?_⟩
  obtain ⟨made, rfl, later⟩ : ∃ made, output = some made ∧ 10 ≤ made := by
    revert output
    decide
  exact ⟨made, rfl, fun time listed => Int.lt_of_lt_of_le (before time listed) later⟩

theorem disciplined_obedient {status : ToolStage → ExitStatus} :
    task.Disciplined (task.obedient status) :=
  ⟨confined_obedient, fun _ _ _ _ _ ended => stamped_obedient ended⟩

private theorem times_set {profile : Text} (text : Text) :
    (PathSet.empty.withSource (siteFiles []) (siteTask (Path.of "aa.slv") profile).source
      (siteTask (Path.of "aa.slv") profile).headers).paths.map (siteBuilt text).modified? =
      [some 5, some 5, some 5] := by cbv

/-- The command on the template, given by its name. -/
def nearTask : Task :=
  siteTask (Path.of "aa.slv") []

def nearTools : Tools :=
  nearTask.obedient fun _ => .exited 0

/-- The state after a first run. -/
def nearState : BuildState :=
  (nearTask.process nearTools siteState).2

private theorem built_near :
    nearState.quiet = { siteState with
      world := ⟨siteBuilt (siteText []), siteState.world.clock, 5⟩
      cache := (DependencyStore.empty.insert nearTask.key
        (PathSet.empty.withSource (siteFiles []) nearTask.source nearTask.headers)).insert
        nearTask.key (PathSet.empty.withSource (siteFiles []) nearTask.source nearTask.headers)
      launches := ToolStage.all.map nearTask.launchOf } :=
  (process_site known_site read_site).2

theorem files_near : nearState.world.files = siteBuilt (siteText []) :=
  congrArg (·.world.files) built_near

theorem known_near : nearState.cache.find? nearTask.key =
    some (PathSet.empty.withSource (siteFiles []) nearTask.source nearTask.headers) := by
  have cache := congrArg (·.cache.find? nearTask.key) built_near
  exact cache.trans DependencyStore.find?_insert_self

theorem apart_near : nearTask.Apart (nearTask.prepared siteState.world.files) := by
  rw [show siteState.world.files = siteFiles [] from rfl, nearTask, prepared_site]
  exact apart_site

theorem apart_near_built : nearTask.Apart (nearTask.prepared nearState.world.files) := by
  rw [files_near, nearTask, prepared_built]
  exact apart_built

/-- The artifacts that the first run made are up to date for another, under any profile. -/
theorem upToDate_near (profile : Text) :
    ((nearTask.again false false profile).process nearTools nearState).1 = .ok .upToDate ∧
      ((nearTask.again false false profile).process nearTools nearState).2.cache =
        nearState.cache ∧
      ((nearTask.again false false profile).process nearTools nearState).2.fileLevel = none ∧
      FileSystem.Retimed 15 (siteBuilt (siteText []))
        ((nearTask.again false false profile).process nearTools nearState).2.world.files := by
  have quiet : nearState.fileLevel = none := congrArg (·.fileLevel) built_near
  have now : nearState.world.now = 15 := congrArg (·.world.now) built_near
  have current : (nearTask.again false false profile).isStale (siteBuilt (siteText []))
      (PathSet.empty.withSource (siteFiles []) nearTask.source nearTask.headers) = false := by
    refine @isStale_site _ _ _ profile times_built fun path member time shown => ?_
    have listed := List.mem_map.mpr ⟨path, member, shown⟩
    rw [nearTask, times_set] at listed
    have five : time = 5 := by simpa using listed
    exact five ▸ Int.le_refl 5
  have refreshed : ∃ count, (Freshness.refresh 15 (siteBuilt (siteText []))
      nearTask.artifacts.all).1 = .ok count := by
    generalize siteText [] = text
    exact ⟨5, by cbv⟩
  obtain ⟨count, refreshed⟩ := refreshed
  obtain ⟨result, after⟩ := @process_of_fresh (nearTask.again false false profile) nearTools _
    nearState count quiet known_near (by rw [files_near]; exact current)
    (by rw [now, files_near]; exact refreshed)
  have ends : ((nearTask.again false false profile).process nearTools nearState).2.world.files = _ :=
    congrArg (·.world.files) after
  refine ⟨result, congrArg (·.cache) after, fileLevel_process quiet, ?_⟩
  rw [ends, now, files_near]
  exact Freshness.retimed_refresh _ _ _

/-- When a second run follows the first, it finds the artifacts up to date. -/
theorem discovered_of_upToDate_rebuilt :
    ∃ set, ((nearTask.again false false []).process nearTools nearState).2.cache.find? nearTask.key =
        some set ∧
      nearTask.discovered
        ((nearTask.again false false []).process nearTools nearState).2.world.files = .ok set :=
  discovered_of_upToDate (begins_site _ _) (by decide)
    (.run false false [] .start apart_near disciplined_obedient) false false [] apart_near_built
    disciplined_obedient (upToDate_near []).1

/-- The path that leads up a number of times, and then to the template. -/
def climb : Nat → Text
  | 0 => "aa.slv".toList
  | times + 1 => '.' :: '.' :: '/' :: climb times

private theorem byteLength_climb (times : Nat) : Text.byteLength (climb times) = 3 * times + 6 := by
  induction times with
  | zero => cbv
  | succ times ih =>
    have dot : '.'.utf8Size = 1 := by decide
    have slash : '/'.utf8Size = 1 := by decide
    simp only [climb, Text.byteLength, dot, slash, ih]
    omega

private theorem splitOn_climb (times : Nat) :
    Text.splitOn '/' (climb times) = List.replicate times ['.', '.'] ++ ["aa.slv".toList] := by
  induction times with
  | zero => cbv
  | succ times ih => simp [climb, Text.splitOn, ih, List.replicate_succ]

private theorem solid_climb (times : Nat) :
    (⟨climb times⟩ : Path).solid = Text.splitOn '/' (climb times) := by
  rw [Path.solid, List.filter_eq_self, splitOn_climb]
  intro part member
  rcases List.mem_append.mp member with up | last
  · rw [List.eq_of_mem_replicate up]
    rfl
  · rw [List.mem_singleton.mp last]
    cbv

private theorem stage_climb (times : Nat) :
    ShaderStage.ofPath? ⟨climb (times + 1)⟩ = some .vertex := by
  have parts : (⟨climb (times + 1)⟩ : Path).parts = ([], Text.splitOn '/' (climb (times + 1))) := by
    simp [climb, Path.parts]
  have last : (⟨climb (times + 1)⟩ : Path).lastPart? =
      some (List.replicate (times + 1) ['.', '.'], "aa.slv".toList) := by
    rw [Path.lastPart?, parts, splitOn_climb, List.reverse_append, List.reverse_singleton,
      List.singleton_append, List.dropWhile_cons_of_neg (by decide)]
    simp
  have found : (⟨climb (times + 1)⟩ : Path).fileName? = some "aa.slv".toList := by
    rw [Path.fileName?, last]
    exact if_neg (by decide)
  rw [ShaderStage.ofPath?, Path.extension?, found]
  cbv

private theorem walk_climb (files : FileSystem) (links times : Nat) (rest : List Step) :
    files.walk .target links [] (List.replicate times .up ++ rest) =
      files.walk .target links [] rest := by
  induction times with
  | zero => rfl
  | succ times ih =>
    rw [List.replicate_succ, List.cons_append, FileSystem.walk]
    exact ih

private theorem nul_climb (times : Nat) : '\x00' ∉ climb times := by
  induction times with
  | zero => decide
  | succ times ih => simpa [climb] using ih

private theorem last_climb (times : Nat) : (climb times).getLast? = some 'v' := by
  induction times with
  | zero => cbv
  | succ times ih => simp [climb, List.getLast?_cons, ih]

private theorem steps_climb (times : Nat) :
    (⟨climb times⟩ : Path).steps = List.replicate times .up ++ [.enter "aa.slv".toList] := by
  rw [Path.steps, splitOn_climb, List.filterMap_append]
  simp

private theorem outlet_climb {times : Nat} (short : 3 * times + 6 < FileSystem.maximalPath)
    (home : files.workingLocation = []) (free : files.frame? ["aa.slv".toList] = none) :
    files.outlet? ⟨climb times⟩ = some ["aa.slv".toList] := by
  refine FileSystem.outlet?_eq_some.mpr ⟨⟨?_, ?_, ?_⟩, ?_, ?_⟩
  · cases times <;> simp [climb]
  · exact nul_climb times
  · rw [byteLength_climb]
    exact short
  · rw [Path.endsInSlash, last_climb]
    rfl
  · rw [home, ite_self, steps_climb, walk_climb, FileSystem.outlet, FileSystem.seen_enter]
    rw [if_neg (by simp), if_neg (by cbv), List.nil_append, free]
    rfl

private theorem absolute_climb (times : Nat) :
    (siteFiles []).absolute ⟨climb (times + 1)⟩ = ⟨'/' :: climb (times + 1)⟩ := by
  have home : (siteFiles []).Home := (begins_site ⟨[]⟩ []).home
  have plain : (⟨climb (times + 1)⟩ : Path).endsInSlash = false := by
    rw [Path.endsInSlash, last_climb]
    rfl
  rw [FileSystem.absolute_eq home (by simp [climb]), plain, FileSystem.way, solid_climb]
  have lead : (⟨climb (times + 1)⟩ : Path).lead = ['/'] := rfl
  rw [lead, Path.written]
  simp [siteFiles, Text.joinWith_splitOn]

variable {times : Nat}

/-- A command whose template is given by a long path. -/
def farTask (times : Nat) : Task :=
  siteTask ⟨climb (times + 1)⟩ []

def farTools (times : Nat) : Tools :=
  (farTask times).obedient fun _ => .exited 0

/-- What the template is edited to: nothing has a file of that name. -/
def farText : Text :=
  "<@include b@>".toList

/-- The artifacts are made, and then the template is edited. -/
def farState (times : Nat) : BuildState :=
  let made := ((farTask times).process (farTools times) siteState).2
  { made with world := (made.world.write (farTask times).source (.text farText)).2 }

private theorem source_far : (farTask times).source = ⟨climb (times + 2)⟩ := rfl

private theorem known_far : ShaderStage.ofPath? (farTask times).source = some .vertex :=
  stage_climb (times + 1)

section

variable (short : 3 * (times + 2) + 6 < FileSystem.maximalPath)
include short

private theorem leads_far :
    (siteFiles []).outlet? (farTask times).source = some ["aa.slv".toList] :=
  @outlet_climb (siteFiles []) (times + 2) short rfl (by cbv)

private theorem read_far : (siteFiles []).readText (farTask times).source = .ok [] := by
  refine FileSystem.readText_eq_ok.mpr ⟨⟨.text [], 5, false, false⟩, ?_, rfl⟩
  rw [FileSystem.file?_of_outlet? (leads_far short)]
  cbv

end

private theorem unseen_far (long : FileSystem.maximalPath ≤ 3 * (times + 2) + 7)
    (files : FileSystem) :
    files.outlet? ((siteFiles []).absolute (farTask times).source) = none := by
  cases leads : files.outlet? ((siteFiles []).absolute (farTask times).source) with
  | none => rfl
  | some location =>
    have accepted := (FileSystem.outlet?_eq_some.mp leads).1.short
    have slash : '/'.utf8Size = 1 := by decide
    rw [source_far, absolute_climb, Text.byteLength, byteLength_climb, slash] at accepted
    omega

private theorem mem_withSource {source path : Path} {headers : List Path}
    (member : path ∈ (PathSet.empty.withSource files source headers).paths) :
    path = files.absolute source ∨ path ∈ headers.map files.absolute := by
  rcases PathSet.mem_of_mem_extend member with own | header
  · rcases PathSet.mem_of_mem_insert own with none | same
    · cases none
    · exact .inl same
  · exact .inr header

private theorem undiscovered_far (files : FileSystem)
    (read : files.readText (farTask times).source = .ok farText) (set : PathSet) :
    (farTask times).discovered files ≠ .ok set := by
  intro found
  obtain ⟨text, included, again, done, _⟩ := discover_eq_ok.mp found
  obtain rfl := Except.ok.inj (read.symm.trans again)
  have errands : Errand.ofText (farTask times).source farText =
      [.fetch (farTask times).source ['b']] := by
    generalize (farTask times).source = source
    cbv
  rw [errands, Include.outcome_unresolved [] rfl] at done
  cases done

private theorem outlets_site {source : Path} {profile : Text}
    (framed : (siteFiles []).Framed files) :
    (siteTask source profile).artifacts.all.map files.outlet? =
      [some ["o".toList], some ["o.spv".toList], some ["o.opt.spv".toList],
        some ["o.json".toList], some ["o.glsl".toList]] := by
  have same : files.outlet? = (siteFiles []).outlet? :=
    funext fun path => (framed.outlet? path).symm
  rw [same]
  cbv

theorem framed_built (text : Text) : (siteFiles []).Framed (siteBuilt text) := by
  refine .trans (.put (by cbv) _) (.trans (.put (by cbv) _) (.trans (.put (by cbv) _)
    (.trans (.put (by cbv) _) (.put (by cbv) _))))

private theorem built_far (short : 3 * (times + 2) + 6 < FileSystem.maximalPath) :
    ((farTask times).process (farTools times) siteState).2.quiet = { siteState with
      world := ⟨siteBuilt (siteText []), siteState.world.clock, 5⟩
      cache := (DependencyStore.empty.insert (farTask times).key
        (PathSet.empty.withSource (siteFiles []) (farTask times).source
          (farTask times).headers)).insert (farTask times).key
        (PathSet.empty.withSource (siteFiles []) (farTask times).source (farTask times).headers)
      launches := ToolStage.all.map (farTask times).launchOf } :=
  (process_site known_far (read_far short)).2

/-- The files after the edit. -/
def farFiles (text : Text) : FileSystem :=
  (siteBuilt text).put ["aa.slv".toList] (.file ⟨.text farText, 15, false, false⟩)

private theorem edited_far (short : 3 * (times + 2) + 6 < FileSystem.maximalPath) :
    (farState times).quiet = { siteState with
      world := ⟨farFiles (siteText []), siteState.world.clock, 6⟩
      cache := (DependencyStore.empty.insert (farTask times).key
        (PathSet.empty.withSource (siteFiles []) (farTask times).source
          (farTask times).headers)).insert (farTask times).key
        (PathSet.empty.withSource (siteFiles []) (farTask times).source (farTask times).headers)
      launches := ToolStage.all.map (farTask times).launchOf } := by
  have built := built_far short
  have leads : (siteBuilt (siteText [])).outlet? (farTask times).source =
      some ["aa.slv".toList] := by
    rw [← (framed_built _).outlet?]
    exact leads_far short
  have there : (siteBuilt (siteText [])).fileAt? ["aa.slv".toList] =
      some ⟨.text [], 5, false, false⟩ := by
    generalize siteText [] = text
    cbv
  have written : (siteBuilt (siteText [])).write (farTask times).source
      15 (.text farText) = .ok (farFiles (siteText [])) :=
    FileSystem.write_eq_ok.mpr ⟨_, leads, by rw [there]; rfl⟩
  have edit : ∀ made : BuildState, ({ made with
      world := (made.world.write (farTask times).source (.text farText)).2 } : BuildState).quiet =
      { made.quiet with
        world := (made.quiet.world.write (farTask times).source (.text farText)).2 } := fun _ => rfl
  rw [farState, edit, built]
  dsimp only [World.write, World.change, World.now]
  have now : siteState.world.clock 5 = 15 := rfl
  rw [now, written]
  rfl

private theorem framed_far (text : Text) : (siteFiles []).Framed (farFiles text) :=
  (framed_built text).trans (.put (by cbv) _)

private theorem prepared_far (text : Text) : (farTask times).prepared (farFiles text) =
    farFiles text := by cbv

private theorem settled_far : (farTask times).Settled (siteFiles []) := by
  intro parent top
  have root : (farTask times).outputBase.parent? = some (Path.of "..") := by cbv
  obtain rfl := Option.some.inj (root.symm.trans top)
  exact .inr (.inr (by cbv))

private theorem times_far (text : Text) :
    (farTask times).artifacts.all.map (farFiles text).modified? =
      [some 10, some 11, some 12, some 13, some 14] := by cbv

private theorem headers_far (text : Text) :
    ((farTask times).headers.map (siteFiles []).absolute).map (farFiles text).modified? =
      [some 5, some 5] := by cbv

private theorem isStale_far (long : FileSystem.maximalPath ≤ 3 * (times + 2) + 7) (text : Text) :
    (farTask times).isStale (farFiles text) (PathSet.empty.withSource (siteFiles [])
      (farTask times).source (farTask times).headers) = false := by
  refine isStale_site (times_far text) fun path member time shown => ?_
  rcases mem_withSource member with rfl | header
  · rw [FileSystem.modified?_eq, FileSystem.file?, unseen_far long] at shown
    cases shown
  · have listed := List.mem_map.mpr ⟨path, header, shown⟩
    rw [headers_far] at listed
    have five : time = 5 := by simpa using listed
    exact five ▸ Int.le_refl 5

private theorem read_edited (short : 3 * (times + 2) + 6 < FileSystem.maximalPath) (text : Text) :
    (farFiles text).readText (farTask times).source = .ok farText := by
  refine FileSystem.readText_eq_ok.mpr ⟨⟨.text farText, 15, false, false⟩, ?_, rfl⟩
  have leads : (farFiles text).outlet? (farTask times).source = some ["aa.slv".toList] := by
    rw [← (framed_far text).outlet?]
    exact leads_far short
  rw [FileSystem.file?_of_outlet? leads]
  cbv

private theorem again_far : (farTask times).again false false [] = farTask times := rfl

private theorem apart_far (short : 3 * (times + 2) + 6 < FileSystem.maximalPath)
    (long : FileSystem.maximalPath ≤ 3 * (times + 2) + 7) :
    (farTask times).Apart (siteFiles []) := by
  refine apart_of_empty (read_far short) ?_
  intro path consulted artifact member location leads same
  have listed := List.mem_map.mpr ⟨artifact, member, leads⟩
  rw [farTask, outlets_site (.refl _)] at listed
  rcases consulted with rfl | known
  · rw [leads_far short] at same
    rw [← Option.some.inj same] at listed
    revert listed
    decide
  · rcases mem_withSource known with rfl | header
    · rw [unseen_far long] at same
      cases same
    · have headers : ((farTask times).headers.map (siteFiles []).absolute).map
          (siteFiles []).outlet? = [some ["libraries".toList, "shaders".toList, "headers".toList,
            "410".toList, "header.glsl".toList], some ["libraries".toList, "shaders".toList,
            "headers".toList, "mono.glsl".toList]] := by cbv
      have place := List.mem_map.mpr ⟨path, header, same⟩
      rw [headers] at place
      simp at place listed
      rcases place with rfl | rfl <;> simp at listed

private theorem built_edit (short : 3 * (times + 2) + 6 < FileSystem.maximalPath) :
    ∃ file, ((farTask times).process (farTools times) siteState).2.world.files.file?
      (farTask times).source = some file ∧ 
    ∀ artifact ∈ (farTask times).artifacts.all, ∀ location,
      ((farTask times).process (farTools times) siteState).2.world.files.outlet?
        (farTask times).source = some location →
      ((farTask times).process (farTools times) siteState).2.world.files.outlet? artifact ≠
        some location := by
  have files : ((farTask times).process (farTools times) siteState).2.world.files =
      siteBuilt (siteText []) := congrArg (·.world.files) (built_far short)
  have leads : (siteBuilt (siteText [])).outlet? (farTask times).source =
      some ["aa.slv".toList] := by
    rw [← (framed_built _).outlet?]
    exact leads_far short
  rw [files]
  refine ⟨⟨.text [], 5, false, false⟩, ?_, fun artifact member location source same => ?_⟩
  · rw [FileSystem.file?_of_outlet? leads]
    generalize siteText [] = text
    cbv
  · obtain rfl := Option.some.inj (leads.symm.trans source)
    have listed := List.mem_map.mpr ⟨artifact, member, same⟩
    rw [farTask, outlets_site (framed_built _)] at listed
    revert listed
    decide

private theorem history_far (short : 3 * (times + 2) + 6 < FileSystem.maximalPath)
    (long : FileSystem.maximalPath ≤ 3 * (times + 2) + 7) :
    (farTask times).History siteState (farState times) := by
  have apart : (farTask times).Apart ((farTask times).prepared siteState.world.files) := by
    rw [show siteState.world.files = siteFiles [] from rfl, prepared_of_settled settled_far]
    exact apart_far short long
  have run := @History.run (farTask times) siteState siteState (farTools times) false false []
    .start apart disciplined_obedient
  rw [again_far] at run
  obtain ⟨file, there, other⟩ := built_edit short
  exact History.edit _ run there other

private theorem stored_far (short : 3 * (times + 2) + 6 < FileSystem.maximalPath) :
    (farState times).cache.find? (farTask times).key =
      some (PathSet.empty.withSource (siteFiles []) (farTask times).source
        (farTask times).headers) := by
  have cache := congrArg (·.cache.find? (farTask times).key) (edited_far short)
  exact cache.trans DependencyStore.find?_insert_self

private theorem noFile_far (short : 3 * (times + 2) + 6 < FileSystem.maximalPath) :
    (farState times).fileLevel = none :=
  congrArg (·.fileLevel) (edited_far short)

private theorem upToDate_far (short : 3 * (times + 2) + 6 < FileSystem.maximalPath)
    (long : FileSystem.maximalPath ≤ 3 * (times + 2) + 7) :
    ((farTask times).process (farTools times) (farState times)).1 = .ok .upToDate ∧
      FileSystem.Retimed 16 (farFiles (siteText []))
        ((farTask times).process (farTools times) (farState times)).2.world.files := by
  have state := edited_far short
  have files : (farState times).world.files = farFiles (siteText []) :=
    congrArg (·.world.files) state
  have now : (farState times).world.now = 16 := congrArg (·.world.now) state
  have refreshed : ∃ count, (Freshness.refresh 16 (farFiles (siteText []))
      (farTask times).artifacts.all).1 = .ok count := by
    generalize siteText [] = text
    exact ⟨5, by cbv⟩
  obtain ⟨count, refreshed⟩ := refreshed
  obtain ⟨result, after⟩ := @process_of_fresh (farTask times) (farTools times) _ _ count
    (noFile_far short) (stored_far short) (by rw [files]; exact isStale_far long _)
    (by rw [now, files]; exact refreshed)
  have ends : ((farTask times).process (farTools times) (farState times)).2.world.files = _ :=
    congrArg (·.world.files) after
  refine ⟨result, ?_⟩
  rw [ends, now, files]
  exact Freshness.retimed_refresh _ _ _

private theorem unnoticed_far (short : 3 * (times + 2) + 6 < FileSystem.maximalPath)
    (long : FileSystem.maximalPath ≤ 3 * (times + 2) + 7) :
    (farTask times).Begins siteState ∧ (farTask times).History siteState (farState times) ∧
      (farTask times).Apart ((farTask times).prepared (farState times).world.files) ∧
      (farTask times).Disciplined (farTools times) ∧
      ((farTask times).process (farTools times) (farState times)).1 = .ok .upToDate ∧
      ∀ set, (farTask times).discovered
        ((farTask times).process (farTools times) (farState times)).2.world.files ≠ .ok set := by
  obtain ⟨current, retimed⟩ := upToDate_far short long
  refine ⟨begins_site _ _, history_far short long, ?_, disciplined_obedient, current,
    undiscovered_far _ ((retimed.readText_eq_ok _ _).mpr (read_edited short _))⟩
  have files : (farState times).world.files = farFiles (siteText []) :=
    congrArg (·.world.files) (edited_far short)
  rw [files, prepared_far]
  exact fun set found => absurd found (undiscovered_far _ (read_edited short _) set)

/-- An edit of a template whose absolute path is too long is not noticed: the run takes the
artifacts for up to date, though the search for dependencies fails. -/
theorem undiscovered_of_upToDate_long :
    (farTask 1361).Begins siteState ∧ (farTask 1361).History siteState (farState 1361) ∧
      (farTask 1361).Apart ((farTask 1361).prepared (farState 1361).world.files) ∧
      (farTask 1361).Disciplined (farTools 1361) ∧
      ((farTask 1361).process (farTools 1361) (farState 1361)).1 = .ok .upToDate ∧
      ∀ set, (farTask 1361).discovered
        ((farTask 1361).process (farTools 1361) (farState 1361)).2.world.files ≠ .ok set :=
  unnoticed_far (by decide) (by decide)

end Task

end ShaderBuild
