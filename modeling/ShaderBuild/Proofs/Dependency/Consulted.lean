import ShaderBuild.Proofs.Dependency.PathSet
import ShaderBuild.Proofs.FileSystem.Home
/-!
What the search for dependencies consults: the texts that it reads and the paths at which it looks
for includes. Among files that agree on these it finds the same dependencies.
-/
namespace ShaderBuild

namespace Expanding

variable {α β : Type} {files : FileSystem}

/-- The paths that an expansion reads, in order. -/
def reads (files : FileSystem) : Expanding α → List Path
  | .ended _ _ => []
  | .reading _ path next => path :: (next (files.readText path)).reads files

theorem reads_after (log : List Log.Entry) (expansion : Expanding α) :
    (expansion.after log).reads files = expansion.reads files := by
  cases expansion <;> rfl

theorem reads_bind (first : Expanding α) (next : α → Expanding β) :
    (first >>= next).reads files = first.reads files ++
      match (first.run files).value with
      | .ok value => (next value).reads files
      | .error _ => [] := by
  induction first with
  | ended log result =>
    cases result with
    | ok value => exact reads_after log (next value)
    | error problem => rfl
  | reading log path answer ih => exact congrArg (path :: ·) (ih (files.readText path))

end Expanding

namespace SearchPath

variable {first second : FileSystem} {search : SearchPath} {name : Text}

/-- The paths at which a name is looked up: those before the first file, and that of the file. -/
def tried (search : SearchPath) (files : FileSystem) (name : Text) : List Path :=
  let paths := search.roots.map fun root => root.join ⟨name⟩
  paths.takeWhile (fun path => !files.isFile path) ++ (paths.find? files.isFile).toList

private theorem find?_congr {items : List Path} {one two : Path → Bool}
    (same : ∀ item ∈ items.takeWhile (fun item => !one item) ++ (items.find? one).toList,
      two item = one item) :
    items.find? two = items.find? one ∧
      items.takeWhile (fun item => !two item) = items.takeWhile fun item => !one item := by
  induction items with
  | nil => exact ⟨rfl, rfl⟩
  | cons item items ih =>
    cases hit : one item with
    | true =>
      have agree := same item (by simp [hit])
      simp [hit, agree]
    | false =>
      have agree := same item (by simp [hit])
      obtain ⟨found, passed⟩ := ih fun other member =>
        same other (by simpa [hit] using .inr (by simpa using member))
      simp [hit, agree, found, passed]

theorem resolve?_congr (home : second.workingDirectory = first.workingDirectory)
    (same : ∀ path ∈ search.tried first name, second.isFile path = first.isFile path) :
    search.resolve? second name = search.resolve? first name ∧
      search.tried second name = search.tried first name := by
  obtain ⟨found, passed⟩ := find?_congr same
  exact ⟨by rw [resolve?, resolve?, found, FileSystem.absolute_congr home],
    by rw [tried, tried, found, passed]⟩

end SearchPath

namespace Include

variable {files first second : FileSystem} {search : SearchPath} {errands : List Errand}
  {set included : PathSet} {path found : Path} {name : Text}

/-- The files that are read while errands are done. -/
def reads (files : FileSystem) (search : SearchPath) (errands : List Errand) (set : PathSet) :
    List Path :=
  (follow files search errands set).reads files

@[simp] theorem reads_nil (set : PathSet) : reads files search [] set = [] := by
  rw [reads, follow]
  rfl

@[simp] theorem reads_note (offset : Nat) (errands : List Errand) (set : PathSet) :
    reads files search (.note offset :: errands) set = reads files search errands set := by
  rw [reads, follow, Expanding.reads_bind]
  rfl

theorem reads_present (errands : List Errand) (resolved : search.resolve? files name = some found)
    (present : set.contains found = true) :
    reads files search (.fetch path name :: errands) set = reads files search errands set := by
  rw [reads, follow]
  split
  · simp_all
  · rename_i other same
    obtain rfl : found = other := by simpa [resolved] using same
    rw [dif_pos present]
    rfl

theorem reads_read {text : Text} (errands : List Errand)
    (resolved : search.resolve? files name = some found) (fresh : set.contains found = false)
    (read : files.readText found = .ok text) :
    reads files search (.fetch path name :: errands) set =
      found :: reads files search (Errand.ofText found text ++ errands) (set.insert found) := by
  rw [reads, follow]
  split
  · simp_all
  · rename_i other same
    obtain rfl : found = other := by simpa [resolved] using same
    rw [dif_neg (by simp [fresh]), Expanding.reads_bind]
    change [] ++ Expanding.reads files (Expanding.readText found >>= _) = _
    rw [Expanding.reads_bind, Expanding.run_readText, read]
    rfl

private theorem text_of_outcome (fresh : set.contains found = false)
    (resolved : search.resolve? files name = some found)
    (done : outcome files search (.fetch path name :: errands) set = .ok included) :
    ∃ text, files.readText found = .ok text ∧
      outcome files search (Errand.ofText found text ++ errands) (set.insert found) =
        .ok included := by
  rw [outcome_read _ resolved fresh, bind_eq_ok] at done
  obtain ⟨text, read, rest⟩ := done
  refine ⟨text, ?_, rest⟩
  cases there : files.readText found with
  | error problem => simp [there, Except.mapError] at read
  | ok own => simpa [there, Except.mapError] using read

/-- The set gains the files that are read, in order. -/
theorem paths_of_outcome (done : outcome files search errands set = .ok included) :
    included.paths = set.paths ++ reads files search errands set := by
  induction errands, set using follow.induct files search with
  | case1 set =>
    rw [outcome_nil] at done
    obtain rfl := Except.ok.inj done
    simp
  | case2 offset rest set ih =>
    rw [outcome_note] at done
    rw [reads_note]
    exact ih done
  | case3 path name rest set missing => simp [outcome_unresolved _ missing] at done
  | case4 path name rest set found resolved present ih =>
    rw [outcome_present _ resolved present] at done
    rw [reads_present _ resolved present]
    exact ih done
  | case5 path name rest set found resolved absent ih =>
    have fresh : set.contains found = false := by simpa using absent
    obtain ⟨text, read, later⟩ := text_of_outcome fresh resolved done
    have added : (set.insert found).paths = set.paths ++ [found] := by
      rw [PathSet.insert, if_neg absent]
    rw [reads_read _ resolved fresh read, ih text later, added, List.append_assoc]
    rfl

/-- Every file that is read is an absolute form and holds a text. -/
theorem of_mem_reads (done : outcome files search errands set = .ok included)
    (member : found ∈ reads files search errands set) :
    (∃ path, found = files.absolute path) ∧ ∃ text, files.readText found = .ok text := by
  induction errands, set using follow.induct files search with
  | case1 set => simp at member
  | case2 offset rest set ih =>
    rw [outcome_note] at done
    rw [reads_note] at member
    exact ih done member
  | case3 path name rest set missing => simp [outcome_unresolved _ missing] at done
  | case4 path name rest set own resolved present ih =>
    rw [outcome_present _ resolved present] at done
    rw [reads_present _ resolved present] at member
    exact ih done member
  | case5 path name rest set own resolved absent ih =>
    have fresh : set.contains own = false := by simpa using absent
    obtain ⟨text, read, later⟩ := text_of_outcome fresh resolved done
    rw [reads_read _ resolved fresh read] at member
    rcases List.mem_cons.mp member with rfl | member
    · obtain ⟨place, _, rfl⟩ := Option.map_eq_some_iff.mp resolved
      exact ⟨⟨place, rfl⟩, text, read⟩
    · exact ih text later member

/-- A name that is asked for by an errand, or by a text that is read. -/
def Asked (files : FileSystem) (errands : List Errand) (read : List Path) (name : Text) : Prop :=
  name ∈ Errand.names errands ∨ ∃ path ∈ read, ∃ text, files.readText path = .ok text ∧
    name ∈ Errand.names (Errand.ofText path text)

/-- Errands go the same way among files where the names that are asked for lead to the same paths,
and these hold the same texts. -/
theorem outcome_agree (done : outcome first search errands set = .ok included)
    (names : ∀ name, Asked first errands (reads first search errands set) name →
      search.resolve? second name = search.resolve? first name)
    (texts : ∀ path ∈ reads first search errands set, ∀ text,
      first.readText path = .ok text → second.readText path = .ok text) :
    outcome second search errands set = .ok included ∧
      reads second search errands set = reads first search errands set := by
  induction errands, set using follow.induct first search with
  | case1 set => exact ⟨by rwa [outcome_nil] at done ⊢, by simp⟩
  | case2 offset rest set ih =>
    rw [outcome_note] at done ⊢
    rw [reads_note] at names texts ⊢
    rw [reads_note]
    exact ih done names texts
  | case3 path name rest set missing => simp [outcome_unresolved _ missing] at done
  | case4 path name rest set found resolved present ih =>
    have resolvedToo := (names name (.inl (by simp))).trans resolved
    rw [reads_present _ resolved present] at names texts ⊢
    rw [outcome_present _ resolved present] at done
    rw [outcome_present _ resolvedToo present, reads_present _ resolvedToo present]
    refine ih done (fun other asked => names other ?_) texts
    exact asked.imp_left fun member => by simp [member]
  | case5 path name rest set found resolved absent ih =>
    have fresh : set.contains found = false := by simpa using absent
    have resolvedToo := (names name (.inl (by simp))).trans resolved
    obtain ⟨text, read, later⟩ := text_of_outcome fresh resolved done
    rw [reads_read _ resolved fresh read] at names texts ⊢
    have readToo := texts found (by simp) text read
    -- The names in the text that is read are asked for by a text that was read.
    have asks : ∀ other, Asked first (Errand.ofText found text ++ rest)
        (reads first search (Errand.ofText found text ++ rest) (set.insert found)) other →
        search.resolve? second other = search.resolve? first other := by
      intro other asked
      refine names other ?_
      rcases asked with member | ⟨there, member, own, holds, asked⟩
      · rw [Errand.names_append, List.mem_append] at member
        rcases member with inside | after
        · exact .inr ⟨found, by simp, text, read, inside⟩
        · exact .inl (by simp [after])
      · exact .inr ⟨there, by simp [member], own, holds, asked⟩
    obtain ⟨same, sameReads⟩ := ih text later asks fun path member => texts path (by simp [member])
    rw [outcome_read _ resolvedToo fresh, reads_read _ resolvedToo fresh readToo, readToo, sameReads]
    exact ⟨same, rfl⟩

end Include

namespace PathSet

variable {set : PathSet} {path : Path}

theorem mem_insert (member : path ∈ set.paths) (other : Path) : path ∈ (set.insert other).paths := by
  unfold PathSet.insert
  split
  · exact member
  · simp [member]

theorem mem_extend (member : path ∈ set.paths) (others : List Path) :
    path ∈ (set.extend others).paths := by
  induction others generalizing set with
  | nil => exact member
  | cons other others ih => exact ih (mem_insert member other)

theorem mem_of_mem_insert {other : Path} (member : path ∈ (set.insert other).paths) :
    path ∈ set.paths ∨ path = other := by
  unfold PathSet.insert at member
  split at member
  · exact .inl member
  · simpa using member

theorem mem_of_mem_extend {others : List Path} (member : path ∈ (set.extend others).paths) :
    path ∈ set.paths ∨ path ∈ others := by
  induction others generalizing set with
  | nil => exact .inl member
  | cons other others ih =>
    rcases @ih (set.insert other) member with own | later
    · rcases mem_of_mem_insert own with old | rfl
      · exact .inl old
      · exact .inr List.mem_cons_self
    · exact .inr (List.mem_cons_of_mem _ later)

theorem listed_insert (set : PathSet) (path : Path) :
    path ∈ (set.insert path).paths ∨
      ∃ known ∈ set.paths, known.components = path.components ∧ known ∈ (set.insert path).paths := by
  by_cases present : set.contains path = true
  · obtain ⟨known, member, same⟩ := List.mem_map.mp (contains_iff.mp present)
    exact .inr ⟨known, member, same, mem_insert member path⟩
  · left
    rw [PathSet.insert, if_neg present]
    simp

theorem listed_extend {others : List Path} (member : path ∈ others) :
    ∃ known ∈ (set.extend others).paths, known.components = path.components ∧
      (known ∈ set.paths ∨ known ∈ others) := by
  induction others generalizing set with
  | nil => cases member
  | cons other others ih =>
    rcases List.mem_cons.mp member with rfl | later
    · rcases listed_insert set path with listed | ⟨known, earlier, same, listed⟩
      · exact ⟨path, mem_extend listed others, rfl, .inr List.mem_cons_self⟩
      · exact ⟨known, mem_extend listed others, same, .inl earlier⟩
    · obtain ⟨known, listed, same, origin⟩ := @ih (set.insert other) later
      refine ⟨known, listed, same, ?_⟩
      rcases origin with old | new
      · rcases mem_of_mem_insert old with older | rfl
        · exact .inl older
        · exact .inr List.mem_cons_self
      · exact .inr (List.mem_cons_of_mem _ new)

theorem withSource_congr {first second : FileSystem} {included : PathSet} {source : Path}
    {headers : List Path} (home : first.workingDirectory = second.workingDirectory) :
    included.withSource second source headers = included.withSource first source headers := by
  rw [withSource, withSource, FileSystem.absolute_congr home.symm]

end PathSet

section

variable {files first second : FileSystem} {search : SearchPath} {source path : Path}
  {headers : List Path} {set : PathSet}

theorem discover_eq_ok : ((discover files search source headers).run files).value = .ok set ↔
    ∃ text included, files.readText source = .ok text ∧
      Include.outcome files search (Errand.ofText source text) PathSet.empty = .ok included ∧
      set = included.withSource files source headers := by
  rw [value_discover, bind_eq_ok]
  constructor
  · rintro ⟨text, read, rest⟩
    obtain ⟨included, done, same⟩ := bind_eq_ok.mp rest
    refine ⟨text, included, ?_, done, (Except.ok.inj same).symm⟩
    cases there : files.readText source with
    | error problem => simp [there, Except.mapError] at read
    | ok own => simpa [there, Except.mapError] using read
  · rintro ⟨text, included, read, done, rfl⟩
    refine ⟨text, by rw [read]; rfl, ?_⟩
    exact bind_eq_ok.mpr ⟨included, done, rfl⟩

theorem reads_discover {text : Text} (read : files.readText source = .ok text) :
    (discover files search source headers).reads files =
      source :: Include.reads files search (Errand.ofText source text) PathSet.empty := by
  rw [discover, Expanding.reads_bind, Expanding.run_readText, read]
  change source :: Expanding.reads files (Include.collect files search source text >>= _) = _
  rw [Expanding.reads_bind]
  cases ((Include.collect files search source text).run files).value with
  | error problem => rw [List.append_nil]; rfl
  | ok included => exact congrArg (source :: ·) (List.append_nil _)

/-- What the search for dependencies consults among the files: what it reads, where it looks for
what these texts include, and what it lists. -/
inductive Consults (files : FileSystem) (search : SearchPath) (source : Path)
    (headers : List Path) : Path → Prop where
  | read {path : Path} (member : path ∈ (discover files search source headers).reads files) :
      Consults files search source headers path
  | tried {scanned path : Path} {text name : Text}
      (member : scanned ∈ (discover files search source headers).reads files)
      (holds : files.readText scanned = .ok text)
      (asked : name ∈ Errand.names (Errand.ofText scanned text))
      (tries : path ∈ search.tried files name) : Consults files search source headers path
  | listed {path : Path} {set : PathSet}
      (found : ((discover files search source headers).run files).value = .ok set)
      (member : path ∈ set.paths) : Consults files search source headers path

/-- Agreement on what is consulted is enough for the same dependencies, and for consulting the
same. -/
theorem discover_agree (found : ((discover first search source headers).run first).value = .ok set)
    (home : second.workingDirectory = first.workingDirectory)
    (texts : ∀ path ∈ (discover first search source headers).reads first, ∀ text,
      second.readText path = .ok text ↔ first.readText path = .ok text)
    (places : ∀ path, Consults first search source headers path →
      second.isFile path = first.isFile path) :
    ((discover second search source headers).run second).value = .ok set ∧
      ∀ path, Consults second search source headers path →
        Consults first search source headers path := by
  obtain ⟨text, included, read, done, same⟩ := discover_eq_ok.mp found
  have reads : (discover first search source headers).reads first =
      source :: Include.reads first search (Errand.ofText source text) PathSet.empty :=
    reads_discover read
  have isRead : source ∈ (discover first search source headers).reads first := by simp [reads]
  have readToo := (texts source isRead text).mpr read
  have agrees {scanned : Path} {own name : Text}
      (member : scanned ∈ (discover first search source headers).reads first)
      (holds : first.readText scanned = .ok own)
      (asked : name ∈ Errand.names (Errand.ofText scanned own)) :=
    SearchPath.resolve?_congr home fun path tries =>
      places path (.tried member holds asked tries)
  have names : ∀ name, Include.Asked first (Errand.ofText source text)
      (Include.reads first search (Errand.ofText source text) PathSet.empty) name →
      search.resolve? second name = search.resolve? first name := by
    rintro name (asked | ⟨scanned, member, own, holds, asked⟩)
    · exact (agrees isRead read asked).1
    · exact (agrees (by simp [reads, member]) holds asked).1
  obtain ⟨doneToo, includes⟩ := Include.outcome_agree done names fun path member own =>
    (texts path (by simp [reads, member]) own).mpr
  have sameReads : (discover second search source headers).reads second =
      (discover first search source headers).reads first := by
    rw [reads, reads_discover readToo, includes]
  have foundToo : ((discover second search source headers).run second).value = .ok set := by
    refine discover_eq_ok.mpr ⟨text, included, readToo, doneToo, ?_⟩
    rw [same, PathSet.withSource_congr home.symm]
  refine ⟨foundToo, fun path consulted => ?_⟩
  cases consulted with
  | read member => exact .read (sameReads ▸ member)
  | tried member holds asked tries =>
    rw [sameReads] at member
    rw [texts _ member] at holds
    rw [(agrees member holds asked).2] at tries
    exact .tried member holds asked tries
  | listed again member =>
    rw [foundToo] at again
    exact .listed found (Except.ok.inj again ▸ member)

/-- Where a text is read, a path of the list leads. -/
theorem listed_of_read {location : Location} (home : files.Home)
    (short : Text.byteLength (files.absolute source).text < FileSystem.maximalPath)
    (found : ((discover files search source headers).run files).value = .ok set)
    (member : path ∈ (discover files search source headers).reads files)
    (leads : files.outlet? path = some location) :
    ∃ listed ∈ set.paths, files.outlet? listed = some location := by
  obtain ⟨text, included, read, done, rfl⟩ := discover_eq_ok.mp found
  have paths : included.paths =
      Include.reads files search (Errand.ofText source text) PathSet.empty :=
    Include.paths_of_outcome done
  rw [reads_discover read, List.mem_cons] at member
  rcases member with rfl | member
  · have whole := FileSystem.outlet?_absolute home leads short
    rcases PathSet.listed_insert included (files.absolute path) with
      listed | ⟨known, earlier, same, listed⟩
    · exact ⟨_, PathSet.mem_extend listed _, whole⟩
    · refine ⟨known, PathSet.mem_extend listed _, ?_⟩
      rw [paths] at earlier
      obtain ⟨⟨other, rfl⟩, text, reads⟩ := Include.of_mem_reads done earlier
      obtain ⟨file, there, _⟩ := FileSystem.readText_eq_ok.mp reads
      obtain ⟨place, leadsToo, _⟩ := FileSystem.file?_eq_some.mp there
      rw [leadsToo, FileSystem.outlet?_same home same leadsToo whole]
  · refine ⟨path, PathSet.mem_extend (PathSet.mem_insert ?_ _) _, leads⟩
    rwa [paths]

/-- Where a header leads, a path of the list leads. -/
theorem listed_of_header {header : Path} {location : Location} (home : files.Home)
    (short : ∀ path ∈ source :: headers,
      Text.byteLength (files.absolute path).text < FileSystem.maximalPath)
    (plain : ∀ path ∈ headers, path.text ≠ [] ∧ path.endsInSlash = false)
    (found : ((discover files search source headers).run files).value = .ok set)
    (member : header ∈ headers) (leads : files.outlet? header = some location) :
    ∃ listed ∈ set.paths, files.outlet? listed = some location := by
  obtain ⟨text, included, read, done, rfl⟩ := discover_eq_ok.mp found
  have whole := FileSystem.outlet?_absolute home leads (short header (List.mem_cons_of_mem _ member))
  have leadsSome {path : Path} {text : Text} (read : files.readText path = .ok text) :
      ∃ location, files.outlet? path = some location := by
    obtain ⟨file, there, _⟩ := FileSystem.readText_eq_ok.mp read
    obtain ⟨place, leadsToo, _⟩ := FileSystem.file?_eq_some.mp there
    exact ⟨place, leadsToo⟩
  obtain ⟨known, listed, same, origin⟩ := @PathSet.listed_extend
    (included.insert (files.absolute source)) _ _ (List.mem_map.mpr ⟨header, member, rfl⟩)
  refine ⟨known, listed, ?_⟩
  -- What was listed before leads somewhere; another header has the same way.
  rcases origin with before | another
  · have form : ∃ path, known = files.absolute path ∧
        ∃ place, files.outlet? (files.absolute path) = some place := by
      rcases PathSet.mem_of_mem_insert before with earlier | rfl
      · rw [Include.paths_of_outcome done] at earlier
        obtain ⟨⟨path, rfl⟩, own, reads⟩ := Include.of_mem_reads done earlier
        exact ⟨path, rfl, leadsSome reads⟩
      · obtain ⟨place, leadsToo⟩ := leadsSome read
        exact ⟨source, rfl, place,
          FileSystem.outlet?_absolute home leadsToo (short source List.mem_cons_self)⟩
    obtain ⟨path, rfl, place, leadsToo⟩ := form
    rw [leadsToo, FileSystem.outlet?_same home same leadsToo whole]
  · obtain ⟨other, listedToo, rfl⟩ := List.mem_map.mp another
    obtain ⟨nonempty, open_⟩ := plain other listedToo
    exact FileSystem.outlet?_of_same home nonempty open_ (short other (List.mem_cons_of_mem _ listedToo))
      same whole

end

end ShaderBuild
