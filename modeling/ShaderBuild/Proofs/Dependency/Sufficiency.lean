import ShaderBuild.Proofs.Dependency.Closure
/-!
How far a list of dependencies vouches for itself. Files that agree on what is listed, and have
nothing where an include was looked up in vain, have the same dependencies; a file at such a place
takes the place of a listed one.
-/
namespace ShaderBuild

/-- The paths at which a name is looked up in vain: those before the first file. -/
def SearchPath.passed (search : SearchPath) (files : FileSystem) (name : Text) : List Path :=
  (search.roots.map fun root => root.join ⟨name⟩).takeWhile fun path => !files.isFile path

/-- While the dependencies of a source are searched, an include is looked up in vain at the path. -/
def Include.Missed (files : FileSystem) (search : SearchPath) (source path : Path) : Prop :=
  ∃ text name, files.readText source = .ok text ∧ Include.Sought files search text name ∧
    path ∈ search.passed files name

/-- The files have the same things listed: each path leads to a file in both or in neither, and the
files hold the same. -/
def FileSystem.Agree (first second : FileSystem) (paths : List Path) : Prop :=
  ∀ path ∈ paths, (second.file? path).map File.contents = (first.file? path).map File.contents

/-- The working directory is the same, and a directory in both. -/
structure FileSystem.Housed (first second : FileSystem) : Prop where
  home : first.Home
  homeToo : second.Home
  start : second.workingLocation = first.workingLocation

section

variable {first second : FileSystem} {search : SearchPath} {source path other : Path}
  {headers : List Path} {set included : PathSet} {text name : Text} {file : File}

theorem FileSystem.Housed.absolute (housed : first.Housed second) :
    second.absolute = first.absolute := by
  funext path
  rw [FileSystem.absolute, FileSystem.absolute, housed.home.written, housed.homeToo.written,
    housed.start]

private theorem contents_of_listed (housed : first.Housed second)
    (short : Text.byteLength (first.absolute path).text < FileSystem.maximalPath)
    (there : first.file? path = some file)
    (same : (first.absolute other).components = (first.absolute path).components)
    (listed : ∃ known, first.file? (first.absolute other) = some known)
    (agree : (second.file? (first.absolute other)).map File.contents =
      (first.file? (first.absolute other)).map File.contents) :
    (second.file? path).map File.contents = some file.contents := by
  obtain ⟨location, leads, own⟩ := FileSystem.file?_eq_some.mp there
  obtain ⟨accepted, plain, _⟩ := FileSystem.outlet?_eq_some.mp leads
  obtain ⟨known, knownThere⟩ := listed
  obtain ⟨place, leadsToo, ownToo⟩ := FileSystem.file?_eq_some.mp knownThere
  have whole := FileSystem.outlet?_absolute housed.home leads short
  obtain rfl := FileSystem.outlet?_same housed.home same leadsToo whole
  obtain rfl : known = file := Option.some.inj (ownToo.symm.trans own)
  rw [knownThere] at agree
  obtain ⟨now, nowThere, holds⟩ := Option.map_eq_some_iff.mp agree
  obtain ⟨next, leadsNow, ownNow⟩ := FileSystem.file?_eq_some.mp nowThere
  rw [← housed.absolute] at leadsNow short same
  have wholeNow := FileSystem.outlet?_of_same housed.homeToo accepted.nonempty plain short same.symm
    leadsNow
  have pathNow := FileSystem.outlet?_of_absolute housed.homeToo accepted plain
    (FileSystem.getLast?_steps leads) wholeNow
  rw [FileSystem.file?_of_outlet? pathNow, ownNow, Option.map_some, holds]

private theorem readText_of_contents (read : first.readText path = .ok text)
    (same : (second.file? path).map File.contents = (first.file? path).map File.contents) :
    second.readText path = .ok text := by
  obtain ⟨file, there, holds⟩ := FileSystem.readText_eq_ok.mp read
  rw [there, Option.map_some, holds] at same
  obtain ⟨now, nowThere, holds⟩ := Option.map_eq_some_iff.mp same
  exact FileSystem.readText_eq_ok.mpr ⟨now, nowThere, holds⟩

namespace Include

private theorem read_of_listed
    (done : outcome first search (Errand.ofText source text) .empty = .ok included)
    (member : path ∈ included.paths) :
    (∃ other, path = first.absolute other) ∧ ∃ own, first.readText path = .ok own := by
  rw [paths_of_outcome done] at member
  exact of_mem_reads done (by simpa [PathSet.empty] using member)

private theorem sought_of_asked (home : first.Home)
    (done : outcome first search (Errand.ofText source text) .empty = .ok included)
    (asked : Asked first (Errand.ofText source text)
      (reads first search (Errand.ofText source text) .empty) name) :
    Sought first search text name := by
  rcases asked with own | ⟨path, member, own, read, asked⟩
  · exact .here (names_ofText source text ▸ own)
  · have shape := (preorder_of_outcome home done).1
    have listed : path ∈ included.paths := by
      rw [paths_of_outcome done]
      exact List.mem_append_right _ member
    rw [shape] at listed
    have inside := (PathSet.mem_of_mem_extend listed).resolve_left (by simp [PathSet.empty])
    obtain ⟨earlier, sought, resolved⟩ :=
      reaches_of_mem_preorder (fun name asked => .here asked) inside
    exact sought.there resolved read (names_ofText path own ▸ asked)

private theorem contents_of_agree {known : Path} (housed : first.Housed second)
    (done : outcome first search (Errand.ofText source text) .empty = .ok included)
    (agree : first.Agree second included.paths) (member : known ∈ included.paths)
    (same : known.components = (first.absolute path).components)
    (there : first.file? path = some file)
    (short : Text.byteLength (first.absolute path).text < FileSystem.maximalPath) :
    (second.file? path).map File.contents = some file.contents := by
  obtain ⟨⟨other, rfl⟩, own, readKnown⟩ := read_of_listed done member
  obtain ⟨found, knownThere, _⟩ := FileSystem.readText_eq_ok.mp readKnown
  exact contents_of_listed housed short there same ⟨found, knownThere⟩ (agree _ member)

private theorem resolve?_of_agree (housed : first.Housed second)
    (read : first.readText source = .ok text)
    (done : outcome first search (Errand.ofText source text) .empty = .ok included)
    (agree : first.Agree second included.paths)
    (absent : ∀ path, Missed first search source path → second.isFile path = false)
    (sought : Sought first search text name) :
    search.resolve? second name = search.resolve? first name := by
  obtain ⟨_, own, resolved, readFound, present⟩ := (preorder_of_outcome housed.home done).2 name sought
  obtain ⟨place, hit, rfl⟩ := Option.map_eq_some_iff.mp resolved
  obtain ⟨known, member, same⟩ := List.mem_map.mp (PathSet.contains_iff.mp present)
  have placed := List.find?_some hit
  have here : second.isFile place = true := by
    obtain ⟨_, foundThere, _⟩ := FileSystem.readText_eq_ok.mp readFound
    obtain ⟨_, leads, _⟩ := FileSystem.file?_eq_some.mp foundThere
    have fits := (FileSystem.outlet?_eq_some.mp leads).1.short
    rw [FileSystem.isFile_eq, Option.isSome_iff_exists] at placed ⊢
    obtain ⟨file, there⟩ := placed
    have holds := contents_of_agree housed done agree member same there fits
    obtain ⟨now, nowThere, _⟩ := Option.map_eq_some_iff.mp holds
    exact ⟨now, nowThere⟩
  have home : second.workingDirectory = first.workingDirectory := by
    rw [housed.home.written, housed.homeToo.written, housed.start]
  refine (SearchPath.resolve?_congr home fun path tries => ?_).1
  rcases List.mem_append.mp tries with passed | last
  · rw [absent path ⟨text, name, read, sought, passed⟩]
    simpa using (List.mem_takeWhile_imp passed).symm
  · rw [hit] at last
    obtain rfl := List.mem_singleton.mp last
    rw [here, placed]

end Include

private theorem readText_of_agree (housed : first.Housed second)
    (short : Text.byteLength (first.absolute source).text < FileSystem.maximalPath)
    (read : first.readText source = .ok text)
    (done : Include.outcome first search (Errand.ofText source text) .empty = .ok included)
    (agree : first.Agree second (included.insert (first.absolute source)).paths) :
    second.readText source = .ok text := by
  refine readText_of_contents read ?_
  obtain ⟨file, there, _⟩ := FileSystem.readText_eq_ok.mp read
  rw [there, Option.map_some]
  rcases PathSet.listed_insert included (first.absolute source) with
    member | ⟨known, earlier, same, _⟩
  · obtain ⟨location, leads, own⟩ := FileSystem.file?_eq_some.mp there
    have whole := FileSystem.outlet?_absolute housed.home leads short
    exact contents_of_listed housed short there rfl
      ⟨file, FileSystem.file?_eq_some.mpr ⟨location, whole, own⟩⟩ (agree _ member)
  · have agreeToo : first.Agree second included.paths :=
      fun path member => agree path (PathSet.mem_insert member _)
    exact Include.contents_of_agree housed done agreeToo earlier same there short

/-- What is listed vouches for the list: the search for dependencies comes to the same among files
that agree on what is listed, and have nothing where an include was looked up in vain. -/
theorem discover_of_agree (housed : first.Housed second)
    (short : Text.byteLength (first.absolute source).text < FileSystem.maximalPath)
    (found : ((discover first search source headers).run first).value = .ok set)
    (agree : first.Agree second set.paths)
    (absent : ∀ path, Include.Missed first search source path → second.isFile path = false) :
    ((discover second search source headers).run second).value = .ok set := by
  obtain ⟨text, included, read, done, rfl⟩ := discover_eq_ok.mp found
  have agreeSource : first.Agree second (included.insert (first.absolute source)).paths :=
    fun path member => agree path (PathSet.mem_extend member _)
  have agreeIncluded : first.Agree second included.paths :=
    fun path member => agreeSource path (PathSet.mem_insert member _)
  have reads : ∀ path ∈ Include.reads first search (Errand.ofText source text) .empty, ∀ own,
      first.readText path = .ok own → second.readText path = .ok own := by
    intro path member own readOwn
    apply readText_of_contents readOwn
    apply agreeIncluded path
    rw [Include.paths_of_outcome done]
    exact List.mem_append_right _ member
  have resolves : ∀ name, Include.Asked first (Errand.ofText source text)
      (Include.reads first search (Errand.ofText source text) .empty) name →
        search.resolve? second name = search.resolve? first name := by
    intro name asked
    apply Include.resolve?_of_agree housed read done agreeIncluded absent
    exact Include.sought_of_asked housed.home done asked
  have doneToo := (Include.outcome_agree done resolves reads).1
  have readToo := readText_of_agree housed short read done agreeSource
  refine discover_eq_ok.mpr ⟨text, included, readToo, doneToo, ?_⟩
  rw [PathSet.withSource, PathSet.withSource, housed.absolute]

end

/-! ### A shelf near and one far -/

/-- A source that includes a file of the second of two directories, and more files. -/
def shelves (more : List (Location × Node)) : FileSystem where
  entries := [([['a']], .file ⟨.text "<@include b@>".toList, 0, false, false⟩),
    (["near".toList], .directory), (["far".toList], .directory),
    (["far".toList, ['b']], .file ⟨.text "float x;".toList, 0, false, false⟩)] ++ more
  workingLocation := []
  workingDirectory := Path.of "/"

/-- Both directories, the near one first. -/
def nearFirst : SearchPath :=
  ⟨[Path.of "near", Path.of "/far"]⟩

private theorem housed_shelves (more : List (Location × Node)) :
    (shelves []).Housed (shelves more) := by
  have home (more : List (Location × Node)) : (shelves more).Home := by
    refine ⟨by rfl, by simp [shelves], fun location within => ?_⟩
    rw [List.prefix_nil.mp within]
    rfl
  exact ⟨home [], home more, rfl⟩

private theorem discover_shelves {more : List (Location × Node)} {found : Path}
    (read : (shelves more).readText (Path.of "a") = .ok "<@include b@>".toList)
    (resolved : nearFirst.resolve? (shelves more) ['b'] = some found)
    (text : (shelves more).readText found = .ok "float x;".toList) :
    ((discover (shelves more) nearFirst (Path.of "a") []).run (shelves more)).value =
      .ok (PathSet.ofList [found, Path.of "/a"]) := by
  have asks : Errand.ofText (Path.of "a") "<@include b@>".toList = [.fetch (Path.of "a") ['b']] := by
    cbv
  have none : Errand.ofText found "float x;".toList = [] := by cbv
  refine discover_eq_ok.mpr ⟨_, PathSet.ofList [found], read, ?_, rfl⟩
  rw [asks, Include.outcome_read _ resolved rfl, text, Except.mapError, Except.bind, none,
    List.nil_append, Include.outcome_nil]
  rfl

private theorem sought_shelves {name : Text}
    (sought : Include.Sought (shelves []) nearFirst "<@include b@>".toList name) : name = ['b'] := by
  induction sought with
  | here asked =>
    have names : Include.namesIn "<@include b@>".toList = [['b']] := by cbv
    rw [names] at asked
    exact List.mem_singleton.mp asked
  | there earlier resolved read asked ih =>
    have finds : nearFirst.resolve? (shelves []) ['b'] = some (Path.of "/far/b") := by cbv
    have held : (shelves []).readText (Path.of "/far/b") = .ok "float x;".toList := by cbv
    have none : Include.namesIn "float x;".toList = [] := by cbv
    rw [ih, finds] at resolved
    obtain rfl := Option.some.inj resolved
    obtain rfl := Except.ok.inj (read.symm.trans held)
    rw [none] at asked
    exact absurd asked List.not_mem_nil

private theorem missed_shelves {path : Path}
    (missed : Include.Missed (shelves []) nearFirst (Path.of "a") path) :
    path = (Path.of "near").join ⟨['b']⟩ := by
  obtain ⟨text, name, read, sought, passed⟩ := missed
  have own : (shelves []).readText (Path.of "a") = .ok "<@include b@>".toList := by cbv
  obtain rfl := Except.ok.inj (read.symm.trans own)
  obtain rfl := sought_shelves sought
  have only : nearFirst.passed (shelves []) ['b'] = [(Path.of "near").join ⟨['b']⟩] := by cbv
  rw [only] at passed
  exact List.mem_singleton.mp passed

/-- A file at another place on the near shelf. -/
def beside : List (Location × Node) :=
  [(["near".toList, ['c']], .file ⟨.text "float y;".toList, 0, false, false⟩)]

/-- A file that the near shelf has as well as the far one. -/
def inFront : List (Location × Node) :=
  [(["near".toList, ['b']], .file ⟨.text "float x;".toList, 0, false, false⟩)]

/-- A file at a place where nothing was looked up changes no dependency. -/
theorem discover_of_agree_beside :
    (shelves []).Housed (shelves beside) ∧
    (shelves []).Agree (shelves beside) [Path.of "/far/b", Path.of "/a"] ∧
    (∀ path, Include.Missed (shelves []) nearFirst (Path.of "a") path →
      (shelves beside).isFile path = false) ∧
    ((discover (shelves beside) nearFirst (Path.of "a") []).run (shelves beside)).value =
      .ok (PathSet.ofList [Path.of "/far/b", Path.of "/a"]) := by
  have found := @discover_shelves [] (Path.of "/far/b") (by cbv) (by cbv) (by cbv)
  have agree : (shelves []).Agree (shelves beside) [Path.of "/far/b", Path.of "/a"] := by
    simp only [FileSystem.Agree, List.forall_mem_cons]
    exact ⟨by cbv, by cbv, by simp⟩
  have absent : ∀ path, Include.Missed (shelves []) nearFirst (Path.of "a") path →
      (shelves beside).isFile path = false := by
    intro path missed
    rw [missed_shelves missed]
    cbv
  exact ⟨housed_shelves beside, agree, absent,
    discover_of_agree (housed_shelves beside) (by cbv) found agree absent⟩

/-- A file that is looked up before a listed one takes its place, and what is listed stays as it
is. -/
theorem discover_ne_of_agree_inFront :
    (shelves []).Housed (shelves inFront) ∧
    ((discover (shelves []) nearFirst (Path.of "a") []).run (shelves [])).value =
      .ok (PathSet.ofList [Path.of "/far/b", Path.of "/a"]) ∧
    (shelves []).Agree (shelves inFront) [Path.of "/far/b", Path.of "/a"] ∧
    ((discover (shelves inFront) nearFirst (Path.of "a") []).run (shelves inFront)).value ≠
      .ok (PathSet.ofList [Path.of "/far/b", Path.of "/a"]) := by
  refine ⟨housed_shelves inFront, discover_shelves (by cbv) (by cbv) (by cbv), ?_, ?_⟩
  · simp only [FileSystem.Agree, List.forall_mem_cons]
    exact ⟨by cbv, by cbv, by simp⟩
  · have front := @discover_shelves inFront (Path.of "/near/b") (by cbv) (by cbv) (by cbv)
    rw [front]
    decide

end ShaderBuild
