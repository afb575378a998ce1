import Mathlib
import ShaderBuild.Proofs.Dependency.Consulted
import ShaderBuild.Text.Utf8
/-!
The files that includes lead to. What a text leads to, and the tree of its includes, are described
without the set of files that a search for dependencies has met; the search is shown to list the tree
in order, without what was listed before, whatever cycles the includes have.
-/
namespace ShaderBuild

namespace Text

private theorem byteLength_joinWith_cons (piece next : Text) (pieces : List Text) :
    byteLength (joinWith ['/'] (piece :: next :: pieces)) =
      byteLength piece + 1 + byteLength (joinWith ['/'] (next :: pieces)) := by
  have slash : byteLength ['/'] = 1 := by decide
  rw [joinWith, List.intercalate_cons_cons, byteLength_append, byteLength_append, slash]
  rfl

theorem byteLength_joinWith_filter (keep : Text → Bool) (pieces : List Text) :
    byteLength (joinWith ['/'] (pieces.filter keep)) ≤ byteLength (joinWith ['/'] pieces) := by
  induction pieces with
  | nil => exact Nat.le_refl _
  | cons piece pieces ih =>
    cases pieces with
    | nil =>
      rw [List.filter_cons]
      split
      · exact Nat.le_refl _
      · exact Nat.zero_le _
    | cons next pieces =>
      rw [byteLength_joinWith_cons, List.filter_cons]
      split
      · cases kept : (next :: pieces).filter keep with
        | nil =>
          have alone : joinWith ['/'] [piece] = piece := by simp [joinWith]
          rw [alone]
          omega
        | cons first rest =>
          rw [byteLength_joinWith_cons, ← kept]
          omega
      · omega

end Text

namespace FileSystem

variable {files : FileSystem} {path other : Path}

private theorem short_of_same (home : files.Home) (accepted : path.Accepted)
    (plain : path.endsInSlash = false) (nonempty : other.text ≠ [])
    (same : (files.absolute other).components = (files.absolute path).components)
    (short : Text.byteLength (files.absolute other).text < maximalPath) :
    Text.byteLength (files.absolute path).text < maximalPath := by
  have ways := way_of_same home nonempty accepted.nonempty same
  have long {path : Path} : path.text ≠ [] → Text.byteLength (files.absolute path).text =
      Text.byteLength path.lead + Text.byteLength (Text.joinWith ['/'] (files.way path)) +
        Text.byteLength (if path.endsInSlash && !(files.way path).isEmpty then ['/'] else []) := by
    intro nonempty
    rw [absolute_eq home nonempty, Path.written, Text.byteLength_append, Text.byteLength_append]
  rw [long nonempty] at short
  rw [long accepted.nonempty, plain, ← ways]
  rcases Path.lead_slashes path with one | two
  · have least : 1 ≤ Text.byteLength other.lead := by
      rcases Path.lead_slashes other with lead | lead <;> rw [lead] <;> decide
    have own : Text.byteLength path.lead = 1 := by rw [one]; decide
    simp only [Bool.false_and, Bool.false_eq_true, if_false, Text.byteLength]
    omega
  · -- Two slashes are those of the path itself, which is at least as long as its absolute form.
    obtain ⟨rest, begins⟩ : ∃ rest, path.text = '/' :: '/' :: rest := by
      unfold Path.lead at two
      split at two
      · simp at two
      · exact ⟨_, ‹_›⟩
      · simp at two
    have rooted : path.isAbsolute = true := by simp [Path.isAbsolute, begins]
    have parts : files.way path =
        (Text.splitOn '/' rest).filter fun part => !Path.isFiller part := by
      rw [way, if_pos rooted, List.nil_append, Path.solid, begins]
      simp [Text.splitOn, Path.isFiller]
    have whole := accepted.short
    rw [begins, ← Text.joinWith_splitOn '/' rest] at whole
    have fewer := Text.byteLength_joinWith_filter (fun part => !Path.isFiller part)
      (Text.splitOn '/' rest)
    rw [ways, parts, two]
    simp only [Bool.false_and, Bool.false_eq_true, if_false, Text.byteLength] at whole ⊢
    omega

theorem readText_of_same (home : files.Home) {text : Text} (present : files.isFile path = true)
    (same : (files.absolute other).components = (files.absolute path).components)
    (read : files.readText (files.absolute other) = .ok text) :
    files.readText (files.absolute path) = .ok text := by
  obtain ⟨file, there, holds⟩ := readText_eq_ok.mp read
  obtain ⟨location, leads, own⟩ := file?_eq_some.mp there
  rw [isFile_eq, Option.isSome_iff_exists] at present
  obtain ⟨_, found⟩ := present
  obtain ⟨_, leadsToo, _⟩ := file?_eq_some.mp found
  obtain ⟨accepted, plain, _⟩ := outlet?_eq_some.mp leadsToo
  have whole := (outlet?_eq_some.mp leads).1
  have nonempty : other.text ≠ [] := by
    intro empty
    apply whole.nonempty
    simp [absolute, Path.absolute?, empty]
  have short := short_of_same home accepted plain nonempty same whole.short
  have same : files.outlet? (files.absolute path) = some location :=
    outlet?_of_same home accepted.nonempty plain short same.symm leads
  exact readText_eq_ok.mpr ⟨file, file?_eq_some.mpr ⟨location, same, own⟩, holds⟩

end FileSystem

namespace PathSet

variable {set : PathSet} {path : Path}

theorem contains_congr {other : Path} (same : path.components = other.components) :
    set.contains path = set.contains other := by
  rw [Bool.eq_iff_iff, contains_iff, contains_iff, same]

theorem contains_insert_iff {other : Path} :
    (set.insert other).contains path = true ↔
      set.contains path = true ∨ other.components = path.components := by
  constructor
  · intro present
    obtain ⟨known, member, same⟩ := List.mem_map.mp (contains_iff.mp present)
    rcases mem_of_mem_insert member with old | rfl
    · exact .inl (contains_iff.mpr (List.mem_map.mpr ⟨known, old, same⟩))
    · exact .inr same
  · rintro (old | same)
    · exact Include.contains_insert old
    · rw [← contains_congr same]
      exact Include.contains_insert_self set other

theorem contains_extend_iff {others : List Path} :
    (set.extend others).contains path = true ↔
      set.contains path = true ∨ ∃ other ∈ others, other.components = path.components := by
  induction others generalizing set with
  | nil => simp [extend]
  | cons other others ih =>
    change ((set.insert other).extend others).contains path = true ↔ _
    rw [ih, contains_insert_iff, List.exists_mem_cons_iff, or_assoc]

theorem extend_append (set : PathSet) (first second : List Path) :
    set.extend (first ++ second) = (set.extend first).extend second :=
  List.foldl_append

theorem extend_of_contains {others : List Path}
    (listed : ∀ other ∈ others, set.contains other = true) : set.extend others = set := by
  induction others with
  | nil => rfl
  | cons other others ih =>
    obtain ⟨own, rest⟩ := List.forall_mem_cons.mp listed
    have nothing : set.insert other = set := by rw [insert, if_pos own]
    change (set.insert other).extend others = set
    rw [nothing, ih rest]

end PathSet

namespace Include

/-- The names that the includes of a text ask for, in order. -/
def namesIn (text : Text) : List Text :=
  (markers text).filterMap fun found =>
    match found.directive with
    | .include name => some name
    | _ => none

/-- The names that the includes of the file at a path ask for; a file that is no text has none. -/
def namesAt (files : FileSystem) (path : Path) : List Text :=
  match files.readText path with
  | .ok text => namesIn text
  | .error _ => []

section

variable (files : FileSystem) (search : SearchPath)

/-- The name is asked for by an include of the text, or of a file that the text leads to. -/
inductive Sought (text : Text) : Text → Prop
  | here {name : Text} (asked : name ∈ namesIn text) : Sought text name
  | there {name other own : Text} {found : Path} (earlier : Sought text name)
      (resolved : search.resolve? files name = some found) (read : files.readText found = .ok own)
      (asked : other ∈ namesIn own) : Sought text other

/-- The text leads to the file at the path through includes. -/
def Reaches (text : Text) (path : Path) : Prop :=
  ∃ name, Sought files search text name ∧ search.resolve? files name = some path

/-- The tree of the files that names lead to, each file before those that it includes itself. A
branch ends where it comes back to a file of `chain`, the files from the root of the tree to here. -/
def preorder (chain : PathSet) : List Text → List Path
  | [] => []
  | name :: names =>
    match _resolved : search.resolve? files name with
    | none => preorder chain names
    | some found =>
      if _met : chain.contains found = true then preorder chain names
      else
        found :: preorder (chain.insert found) (namesAt files found) ++ preorder chain names
  termination_by names => (unseen files chain, names.length)
  decreasing_by
    · exact Prod.Lex.right _ (by simp)
    · exact Prod.Lex.right _ (by simp)
    · exact Prod.Lex.left _ _ (unseen_insert_lt (resolve?_mem _resolved) _met)
    · exact Prod.Lex.right _ (by simp)

end

variable {files : FileSystem} {search : SearchPath} {chain set included : PathSet}
  {text name : Text} {names : List Text} {path found : Path} {errands : List Errand}

theorem preorder_nil (chain : PathSet) : preorder files search chain [] = [] := by
  rw [preorder]

theorem preorder_unresolved (missing : search.resolve? files name = none) :
    preorder files search chain (name :: names) = preorder files search chain names := by
  rw [preorder]
  split
  · rfl
  · simp_all

theorem preorder_met (resolved : search.resolve? files name = some found)
    (met : chain.contains found = true) :
    preorder files search chain (name :: names) = preorder files search chain names := by
  rw [preorder]
  split
  · rfl
  · rename_i other same
    obtain rfl : found = other := by simpa [resolved] using same
    rw [dif_pos met]

theorem preorder_entered (resolved : search.resolve? files name = some found)
    (fresh : ¬chain.contains found = true) :
    preorder files search chain (name :: names) =
      found :: preorder files search (chain.insert found) (namesAt files found) ++
        preorder files search chain names := by
  rw [preorder]
  split
  · simp_all
  · rename_i other same
    obtain rfl : found = other := by simpa [resolved] using same
    rw [dif_neg fresh]

theorem names_ofText (path : Path) (text : Text) :
    Errand.names (Errand.ofText path text) = namesIn text := by
  rw [Errand.names, Errand.ofText, namesIn, markers, List.filterMap_filterMap,
    List.filterMap_filterMap]
  refine List.filterMap_congr fun piece _ => ?_
  cases piece with
  | char c => rfl
  | stray offset => rfl
  | marker found =>
    cases same : found.directive <;> simp [Errand.ofPiece?, Piece.marker?, Errand.name?, same]

theorem outcome_append (first second : List Errand) (set : PathSet) :
    outcome files search (first ++ second) set =
      (outcome files search first set).bind (outcome files search second) := by
  induction first, set using follow.induct files search with
  | case1 set => rw [outcome_nil]; rfl
  | case2 offset rest set ih => rw [List.cons_append, outcome_note, outcome_note, ih]
  | case3 path name rest set missing =>
    rw [List.cons_append, outcome_unresolved _ missing, outcome_unresolved _ missing]
    rfl
  | case4 path name rest set found resolved present ih =>
    rw [List.cons_append, outcome_present _ resolved present, outcome_present _ resolved present, ih]
  | case5 path name rest set found resolved absent ih =>
    have fresh : set.contains found = false := by simpa using absent
    rw [List.cons_append, outcome_read _ resolved fresh, outcome_read _ resolved fresh]
    cases (files.readText found).mapError (ExpansionError.unreadable found) with
    | error problem => rfl
    | ok text =>
      change outcome files search (_ ++ (rest ++ second)) _ = _
      rw [← List.append_assoc]
      exact ih text

/-- What is listed without being on the chain has been read, and all that it asks for is listed. -/
def Settled (files : FileSystem) (search : SearchPath) (chain set : PathSet) : Prop :=
  ∀ name found, search.resolve? files name = some found → set.contains found = true →
    chain.contains found = true ∨ ∃ own, files.readText found = .ok own ∧
      ∀ other ∈ namesIn own, ∃ next, search.resolve? files other = some next ∧
        set.contains next = true

theorem settled_empty : Settled files search .empty .empty := by
  intro name found _ present
  simp [PathSet.contains, PathSet.empty] at present

/-- Before the includes of a file are followed, it enters the set and the chain. -/
theorem Settled.enter (settled : Settled files search chain set) (path : Path) :
    Settled files search (chain.insert path) (set.insert path) := by
  intro name found resolved present
  rcases PathSet.contains_insert_iff.mp present with old | same
  · refine (settled name found resolved old).imp contains_insert ?_
    rintro ⟨own, read, asked⟩
    refine ⟨own, read, fun other member => ?_⟩
    obtain ⟨next, leads, listed⟩ := asked other member
    exact ⟨next, leads, contains_insert listed⟩
  · exact .inl (PathSet.contains_insert_iff.mpr (.inr same))

/-- Once all that a file asks for is listed, it leaves the chain. -/
theorem Settled.leave (home : files.Home) (settled : Settled files search (chain.insert found) set)
    (resolved : search.resolve? files name = some found) (read : files.readText found = .ok text)
    (asked : ∀ other ∈ namesIn text, ∃ next, search.resolve? files other = some next ∧
      set.contains next = true) :
    Settled files search chain set := by
  intro other path resolvedToo present
  rcases settled other path resolvedToo present with met | done
  · rcases PathSet.contains_insert_iff.mp met with old | same
    · exact .inl old
    · obtain ⟨place, _, rfl⟩ := Option.map_eq_some_iff.mp resolved
      obtain ⟨own, there, rfl⟩ := Option.map_eq_some_iff.mp resolvedToo
      have there := List.find?_some there
      exact .inr ⟨text, FileSystem.readText_of_same home there same read, asked⟩
  · exact .inr done

/-- All that the tree holds below what is listed is listed. -/
theorem contains_of_mem_preorder (settled : Settled files search chain set)
    (listed : ∀ name ∈ names, ∃ found, search.resolve? files name = some found ∧
      set.contains found = true) (member : path ∈ preorder files search chain names) :
    set.contains path = true := by
  induction chain, names using preorder.induct files search with
  | case1 chain => simp [preorder_nil] at member
  | case2 chain name names missing ih =>
    rw [preorder_unresolved missing] at member
    exact ih settled (List.forall_mem_cons.mp listed).2 member
  | case3 chain name names found resolved met ih =>
    rw [preorder_met resolved met] at member
    exact ih settled (List.forall_mem_cons.mp listed).2 member
  | case4 chain name names found resolved fresh inner rest =>
    obtain ⟨own, later⟩ := List.forall_mem_cons.mp listed
    obtain ⟨other, resolvedToo, present⟩ := own
    obtain rfl : found = other := Option.some.inj (resolved.symm.trans resolvedToo)
    obtain ⟨text, read, asked⟩ := (settled name found resolved present).resolve_left fresh
    have wider : Settled files search (chain.insert found) set := fun other path leads there =>
      (settled other path leads there).imp_left contains_insert
    rw [preorder_entered resolved fresh, List.mem_append, List.mem_cons] at member
    rcases member with (rfl | below) | after
    · exact present
    · refine inner wider ?_ below
      rw [namesAt, read]
      exact asked
    · exact rest settled later after

private theorem Settled.extend_branch (settled : Settled files search chain set)
    (resolved : search.resolve? files name = some found) (fresh : ¬chain.contains found = true)
    (present : set.contains found = true) :
    set.extend (found :: preorder files search (chain.insert found) (namesAt files found)) = set := by
  obtain ⟨text, read, asked⟩ := (settled name found resolved present).resolve_left fresh
  have wider : Settled files search (chain.insert found) set := fun other path leads there =>
    (settled other path leads there).imp_left contains_insert
  refine PathSet.extend_of_contains (List.forall_mem_cons.mpr ⟨present, fun other below => ?_⟩)
  refine contains_of_mem_preorder wider ?_ below
  rw [namesAt, read]
  exact asked

/-- A search lists the tree in order, without what is listed already. -/
theorem outcome_preorder (home : files.Home) (names : List Text)
    (same : Errand.names errands = names)
    (within : ∀ path, chain.contains path = true → set.contains path = true)
    (settled : Settled files search chain set)
    (done : outcome files search errands set = .ok included) :
    included = set.extend (preorder files search chain names) ∧
      Settled files search chain included ∧
      ∀ name ∈ names, ∃ found, search.resolve? files name = some found ∧
        included.contains found = true := by
  induction chain, names using preorder.induct files search generalizing errands set included with
  | case1 chain =>
    rw [outcome_of_names_nil same] at done
    obtain rfl := Except.ok.inj done
    rw [preorder_nil]
    exact ⟨rfl, settled, by simp⟩
  | case2 chain name names missing ih =>
    obtain ⟨path, rest, _, equal⟩ := @outcome_of_names_cons files search _ set _ _ same
    rw [equal, outcome_unresolved _ missing] at done
    simp at done
  | case3 chain name names found resolved met ih =>
    -- A file on the chain is listed already, and the tree does not go into it again.
    obtain ⟨path, rest, agree, equal⟩ := @outcome_of_names_cons files search _ set _ _ same
    rw [equal, outcome_present _ resolved (within found met)] at done
    obtain ⟨shape, settled, listed⟩ := ih agree within settled done
    rw [preorder_met resolved met]
    refine ⟨shape, settled, List.forall_mem_cons.mpr ⟨⟨found, resolved, ?_⟩, listed⟩⟩
    rw [shape]
    exact PathSet.contains_extend_iff.mpr (.inl (within found met))
  | case4 chain name names found resolved fresh inner later =>
    obtain ⟨path, rest, agree, equal⟩ := @outcome_of_names_cons files search _ set _ _ same
    rw [equal] at done
    rw [preorder_entered resolved fresh, PathSet.extend_append]
    -- The tree goes into every file that is not on the chain, the search only into one not listed.
    by_cases present : set.contains found = true
    · rw [outcome_present _ resolved present] at done
      have nothing := settled.extend_branch resolved fresh present
      obtain ⟨shape, settled, listed⟩ := later agree within settled done
      rw [nothing]
      refine ⟨shape, settled, List.forall_mem_cons.mpr ⟨⟨found, resolved, ?_⟩, listed⟩⟩
      rw [shape]
      exact PathSet.contains_extend_iff.mpr (.inl present)
    · have absent : set.contains found = false := by simpa using present
      rw [outcome_read _ resolved absent, bind_eq_ok] at done
      obtain ⟨text, read, done⟩ := done
      have read : files.readText found = .ok text := by
        cases there : files.readText found with
        | error problem => simp [there, Except.mapError] at read
        | ok own => simpa [there, Except.mapError] using read
      rw [outcome_append, bind_eq_ok] at done
      obtain ⟨middle, below, done⟩ := done
      have entered : ∀ path, (chain.insert found).contains path = true →
          (set.insert found).contains path = true := by
        intro path met
        rw [PathSet.contains_insert_iff] at met ⊢
        exact met.imp_left (within path)
      have asksFor : Errand.names (Errand.ofText found text) = namesAt files found := by
        rw [names_ofText, namesAt, read]
      obtain ⟨shape, inside, listed⟩ := inner asksFor entered (settled.enter found) below
      have shape : middle = set.extend
          (found :: preorder files search (chain.insert found) (namesAt files found)) := shape
      rw [namesAt, read] at listed
      have left := inside.leave home resolved read listed
      have grown : ∀ path, chain.contains path = true → middle.contains path = true :=
        fun path met => shape ▸ PathSet.contains_extend_iff.mpr (.inl (within path met))
      obtain ⟨whole, settled, rest⟩ := later agree grown left done
      rw [← shape]
      refine ⟨whole, settled, List.forall_mem_cons.mpr ⟨⟨found, resolved, ?_⟩, rest⟩⟩
      rw [whole, shape, PathSet.contains_extend_iff, PathSet.contains_extend_iff]
      exact .inl (.inr ⟨found, List.mem_cons_self, rfl⟩)

/-- The tree holds nothing but what the text leads to. -/
theorem reaches_of_mem_preorder (sought : ∀ name ∈ names, Sought files search text name)
    (member : path ∈ preorder files search chain names) : Reaches files search text path := by
  induction chain, names using preorder.induct files search with
  | case1 chain => simp [preorder_nil] at member
  | case2 chain name names missing ih =>
    rw [preorder_unresolved missing] at member
    exact ih (List.forall_mem_cons.mp sought).2 member
  | case3 chain name names found resolved met ih =>
    rw [preorder_met resolved met] at member
    exact ih (List.forall_mem_cons.mp sought).2 member
  | case4 chain name names found resolved fresh inner rest =>
    obtain ⟨own, later⟩ := List.forall_mem_cons.mp sought
    rw [preorder_entered resolved fresh, List.mem_append, List.mem_cons] at member
    rcases member with (rfl | below) | after
    · exact ⟨name, own, resolved⟩
    · refine inner (fun other asked => ?_) below
      unfold namesAt at asked
      cases read : files.readText found with
      | error problem => simp [read] at asked
      | ok text => exact own.there resolved read (by simpa [read] using asked)
    · exact rest later after

/-- Errands succeed where all that is asked for on the way leads to texts. -/
theorem outcome_of_sought (readable : ∀ name, Sought files search text name →
      ∃ found own, search.resolve? files name = some found ∧ files.readText found = .ok own)
    (sought : ∀ name ∈ Errand.names errands, Sought files search text name) :
    ∃ included, outcome files search errands set = .ok included := by
  induction errands, set using follow.induct files search with
  | case1 set => exact ⟨set, outcome_nil ..⟩
  | case2 offset rest set ih => exact outcome_note files search offset rest set ▸ ih sought
  | case3 path name rest set missing =>
    obtain ⟨found, _, resolved, _⟩ := readable name (sought name (by simp))
    simp [missing] at resolved
  | case4 path name rest set found resolved present ih =>
    rw [outcome_present _ resolved present]
    exact ih fun other member => sought other (by simp [member])
  | case5 path name rest set found resolved absent ih =>
    have own := sought name (by simp)
    obtain ⟨other, text, resolvedToo, read⟩ := readable name own
    obtain rfl : found = other := Option.some.inj (resolved.symm.trans resolvedToo)
    rw [outcome_read _ resolved (by simpa using absent), read]
    refine ih text fun other member => ?_
    rw [Errand.names_append, List.mem_append, names_ofText] at member
    rcases member with inside | after
    · exact own.there resolved read inside
    · exact sought other (by simp [after])

/-- On success, the set lists the tree, all that is sought leads to texts, and each file that the
text leads to is listed. -/
theorem preorder_of_outcome (home : files.Home)
    (done : outcome files search (Errand.ofText path text) .empty = .ok included) :
    included = PathSet.ofList (preorder files search .empty (namesIn text)) ∧
      ∀ name, Sought files search text name → ∃ found own,
        search.resolve? files name = some found ∧ files.readText found = .ok own ∧
          included.contains found = true := by
  have none : ∀ path, PathSet.empty.contains path = true →
      PathSet.empty.contains path = true := fun _ present => present
  obtain ⟨shape, settled, listed⟩ :=
    outcome_preorder home (namesIn text) (names_ofText path text) none settled_empty done
  have closed {name : Text} {found : Path} (resolved : search.resolve? files name = some found)
      (present : included.contains found = true) := (settled name found resolved present).resolve_left
    (by simp [PathSet.contains, PathSet.empty])
  refine ⟨shape, fun name sought => ?_⟩
  induction sought with
  | here asked =>
    obtain ⟨found, resolved, present⟩ := listed _ asked
    obtain ⟨own, read, _⟩ := closed resolved present
    exact ⟨found, own, resolved, read, present⟩
  | there earlier resolved read asked ih =>
    obtain ⟨found, own, resolvedToo, readToo, present⟩ := ih
    obtain rfl := Option.some.inj (resolved.symm.trans resolvedToo)
    obtain ⟨text, own, all⟩ := closed resolved present
    obtain rfl := Except.ok.inj (read.symm.trans own)
    obtain ⟨next, leads, there⟩ := all _ asked
    obtain ⟨text, readNext, _⟩ := closed leads there
    exact ⟨next, text, leads, readNext, there⟩

end Include

/-- Listing dependencies succeeds exactly if the source is a text and each include of it, and of the
files that it leads to, is found and is a text. The list has no path twice: it is the tree of the
includes, then the source, then the headers, each the first time that it comes up; and the tree
holds the files that the source leads to. -/
theorem discover_closure (files : FileSystem) (home : files.Home) (search : SearchPath)
    (source : Path) (headers : List Path) :
    ((∃ set, ((discover files search source headers).run files).value = .ok set) ↔
      ∃ text, files.readText source = .ok text ∧ ∀ name, Include.Sought files search text name →
        ∃ found own, search.resolve? files name = some found ∧ files.readText found = .ok own) ∧
    ∀ set, ((discover files search source headers).run files).value = .ok set →
      set.Distinct ∧ ∃ text, files.readText source = .ok text ∧
        let tree := Include.preorder files search .empty (Include.namesIn text)
        set = PathSet.ofList (tree ++ files.absolute source :: headers.map files.absolute) ∧
        (∀ path ∈ tree, Include.Reaches files search text path) ∧
        ∀ path, Include.Reaches files search text path → ∃ listed ∈ tree, listed.same path = true := by
  refine ⟨⟨?_, ?_⟩, fun set found => ⟨distinct_discover found, ?_⟩⟩
  · rintro ⟨set, found⟩
    obtain ⟨text, included, read, done, _⟩ := discover_eq_ok.mp found
    refine ⟨text, read, fun name sought => ?_⟩
    obtain ⟨found, own, resolved, read, _⟩ := (Include.preorder_of_outcome home done).2 name sought
    exact ⟨found, own, resolved, read⟩
  · rintro ⟨text, read, readable⟩
    obtain ⟨included, done⟩ := @Include.outcome_of_sought files search .empty text
      (Errand.ofText source text) readable fun name asked =>
        .here (Include.names_ofText source text ▸ asked)
    exact ⟨_, discover_eq_ok.mpr ⟨text, included, read, done, rfl⟩⟩
  · obtain ⟨text, included, read, done, rfl⟩ := discover_eq_ok.mp found
    obtain ⟨shape, sought⟩ := Include.preorder_of_outcome home done
    refine ⟨text, read, ?_, fun path member => ?_, fun path reaches => ?_⟩
    · rw [PathSet.withSource, shape, PathSet.ofList, PathSet.ofList, PathSet.extend_append]
      rfl
    · exact Include.reaches_of_mem_preorder (fun name asked => .here asked) member
    · obtain ⟨name, asked, resolved⟩ := reaches
      obtain ⟨found, _, resolvedToo, _, present⟩ := sought name asked
      obtain rfl := Option.some.inj (resolved.symm.trans resolvedToo)
      rw [shape, PathSet.ofList, PathSet.contains_extend_iff] at present
      rcases present with none | ⟨listed, member, same⟩
      · simp [PathSet.contains, PathSet.empty] at none
      · exact ⟨listed, member, Path.same_iff.mpr same⟩

/-- Two files that include each other, one of them itself too, and a source that includes both. -/
def circle : FileSystem where
  entries := [([['a']], .file ⟨.text "<@include b@><@include c@>".toList, 0, false, false⟩),
    ([['b']], .file ⟨.text "<@include c@>".toList, 0, false, false⟩),
    ([['c']], .file ⟨.text "<@include b@><@include c@>".toList, 0, false, false⟩)]
  workingLocation := []
  workingDirectory := Path.of "/"

namespace Include

private theorem finds_circle :
    (⟨[Path.of "/"]⟩ : SearchPath).resolve? circle ['b'] = some (Path.of "/b") ∧
      (⟨[Path.of "/"]⟩ : SearchPath).resolve? circle ['c'] = some (Path.of "/c") := by
  constructor <;> cbv

private theorem names_circle :
    namesAt circle (Path.of "/b") = [['c']] ∧ namesAt circle (Path.of "/c") = [['b'], ['c']] := by
  constructor <;> cbv

private theorem tree_circle : preorder circle ⟨[Path.of "/"]⟩ .empty [['b'], ['c']] =
    [Path.of "/b", Path.of "/c", Path.of "/c", Path.of "/b"] := by
  obtain ⟨findB, findC⟩ := finds_circle
  obtain ⟨namesB, namesC⟩ := names_circle
  have below (chain : PathSet) (metB : chain.contains (Path.of "/b") = true)
      (metC : chain.contains (Path.of "/c") = true) :
      preorder circle ⟨[Path.of "/"]⟩ chain [['b'], ['c']] = [] := by
    rw [preorder_met findB metB, preorder_met findC metC, preorder_nil]
  rw [preorder_entered findB (by decide), preorder_entered findC (by decide), namesB, namesC,
    preorder_entered findC (by decide), preorder_entered findB (by decide), namesB, namesC,
    below _ (by decide) (by decide), preorder_met findC (by decide), preorder_met findC (by decide)]
  simp only [preorder_nil]
  rfl

private theorem sought_circle {name : Text}
    (sought : Sought circle ⟨[Path.of "/"]⟩ "<@include b@><@include c@>".toList name) :
    name = ['b'] ∨ name = ['c'] := by
  obtain ⟨findB, findC⟩ := finds_circle
  obtain ⟨namesB, namesC⟩ := names_circle
  have namesAt_ok {path : Path} {text : Text} (read : circle.readText path = .ok text) :
      namesAt circle path = namesIn text := by rw [namesAt, read]
  induction sought with
  | here asked =>
    have names : namesIn "<@include b@><@include c@>".toList = [['b'], ['c']] := by cbv
    rw [names] at asked
    simpa using asked
  | there earlier resolved read asked ih =>
    rw [← namesAt_ok read] at asked
    rcases ih with rfl | rfl
    · obtain rfl := Option.some.inj (findB.symm.trans resolved)
      rw [namesB] at asked
      exact .inr (by simpa using asked)
    · obtain rfl := Option.some.inj (findC.symm.trans resolved)
      rw [namesC] at asked
      simpa using asked

end Include

/-- Each file of a circle of includes is listed once, before those that it includes. -/
theorem discover_closure_circle :
    circle.Home ∧ ∃ set,
      ((discover circle ⟨[Path.of "/"]⟩ (Path.of "a") [Path.of "c"]).run circle).value = .ok set ∧
      set.paths = [Path.of "/b", Path.of "/c", Path.of "/a"] := by
  have home : circle.Home := by
    refine ⟨by cbv, by simp [circle], fun location within => ?_⟩
    rw [List.prefix_nil.mp within]
    rfl
  have read : circle.readText (Path.of "a") = .ok "<@include b@><@include c@>".toList := by cbv
  have names : Include.namesIn "<@include b@><@include c@>".toList = [['b'], ['c']] := by cbv
  obtain ⟨findB, findC⟩ := Include.finds_circle
  obtain ⟨succeeds, lists⟩ :=
    discover_closure circle home ⟨[Path.of "/"]⟩ (Path.of "a") [Path.of "c"]
  obtain ⟨set, found⟩ := succeeds.mpr ⟨_, read, fun name sought => by
    rcases Include.sought_circle sought with rfl | rfl
    · exact ⟨_, "<@include c@>".toList, findB, by cbv⟩
    · exact ⟨_, "<@include b@><@include c@>".toList, findC, by cbv⟩⟩
  obtain ⟨_, text, readToo, shape, _⟩ := lists set found
  obtain rfl := Except.ok.inj (read.symm.trans readToo)
  rw [names, Include.tree_circle] at shape
  refine ⟨home, set, found, ?_⟩
  rw [shape]
  cbv

end ShaderBuild
