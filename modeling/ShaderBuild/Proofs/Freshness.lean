import ShaderBuild.Freshness
import ShaderBuild.Proofs.FileSystem.Outlet
import Mathlib.Logic.Basic
/-!
When outputs are fresh, and what refreshing them changes: the times of files, and nothing else.
-/
namespace ShaderBuild

namespace Freshness

variable {inputs outputs : List (Option Instant)} {bound : Instant}

/-- The given times, missing ones apart, are all before the bound. -/
def AllBefore (times : List (Option Instant)) (bound : Instant) : Prop :=
  ∀ time, some time ∈ times → time < bound

private theorem AllBefore.mono {later : Instant} (before : AllBefore inputs bound)
    (le : bound ≤ later) : AllBefore inputs later :=
  fun time given => Int.lt_of_lt_of_le (before time given) le

private theorem foldl_before {combine : Option Instant → Option Instant → Option Instant}
    (both : ∀ latest time, combine (some latest) (some time) = some (max latest time))
    (old : ∀ latest, combine (some latest) none = some latest)
    (new : ∀ time, combine none time = time) (times : List (Option Instant))
    (latest : Option Instant) :
    (∀ last, times.foldl combine latest = some last → last < bound) ↔
      AllBefore (latest :: times) bound := by
  induction times generalizing latest with
  | nil => simp [AllBefore, eq_comm]
  | cons time times ih =>
    rw [List.foldl_cons, ih]
    unfold AllBefore
    cases latest with
    | none => simp [new]
    | some latest =>
      cases time with
      | none => simp [old]
      | some time =>
        simp only [both, List.mem_cons, Option.some.injEq, forall_eq_or_imp]
        rw [← and_assoc]
        refine and_congr_left fun _ => ?_
        exact Int.max_lt

theorem latest?_lt_iff : (∀ last, latest? inputs = some last → last < bound) ↔
    AllBefore inputs bound := by
  unfold latest?
  refine (foldl_before ?_ ?_ ?_ inputs none).trans ?_
  · exact fun _ _ => rfl
  · exact fun _ => rfl
  · exact fun _ => rfl
  · simp [AllBefore]

private theorem earliest?_eq_some {time next : Option Instant} {rest : List (Option Instant)}
    {first : Instant} :
    earliest? (time :: next :: rest) = some first ↔
      ∃ made last, time = some made ∧ earliest? (next :: rest) = some last ∧
        first = min made last := by
  cases time <;> cases found : earliest? (next :: rest) <;> simp [earliest?, found, eq_comm]

theorem earliest?_after : (∃ first, earliest? outputs = some first ∧ AllBefore inputs first) ↔
    outputs ≠ [] ∧ ∀ output ∈ outputs, ∃ made, output = some made ∧ AllBefore inputs made := by
  induction outputs with
  | nil => simp [earliest?]
  | cons time rest ih =>
    cases rest with
    | nil => simp [earliest?]
    | cons next rest =>
      rw [List.forall_mem_cons]
      simp only [ne_eq, reduceCtorEq, not_false_eq_true, true_and] at ih ⊢
      rw [← ih]
      constructor
      · rintro ⟨first, same, before⟩
        obtain ⟨made, last, rfl, found, rfl⟩ := earliest?_eq_some.mp same
        exact ⟨⟨made, rfl, before.mono (Int.min_le_left _ _)⟩,
          ⟨last, found, before.mono (Int.min_le_right _ _)⟩⟩
      · rintro ⟨⟨made, rfl, before⟩, ⟨last, found, beforeToo⟩⟩
        refine ⟨min made last, earliest?_eq_some.mpr ⟨made, last, rfl, found, rfl⟩, ?_⟩
        rcases Int.le_total made last with le | le
        · rwa [Int.min_eq_left le]
        · rwa [Int.min_eq_right le]

theorem stale_eq_false_iff : stale inputs outputs = false ↔
    outputs ≠ [] ∧ ∀ output ∈ outputs, ∃ made, output = some made ∧ AllBefore inputs made := by
  rw [← earliest?_after]
  unfold stale
  cases earliest? outputs with
  | none => simp
  | some first =>
    simp only [Option.some.injEq, exists_eq_left', ← latest?_lt_iff]
    cases latest? inputs with
    | none => simp
    | some last => simp

theorem stale_eq_false_iff_lt : stale inputs outputs = false ↔ outputs ≠ [] ∧ none ∉ outputs ∧
    ∀ time made, some time ∈ inputs → some made ∈ outputs → time < made := by
  rw [stale_eq_false_iff]
  refine and_congr_right fun _ => ⟨fun each => ⟨fun missing => ?_, fun time made given output => ?_⟩, ?_⟩
  · obtain ⟨made, same, _⟩ := each none missing
    cases same
  · obtain ⟨other, same, before⟩ := each (some made) output
    rw [Option.some.inj same]
    exact before time given
  · rintro ⟨present, before⟩ output member
    cases output with
    | none => exact absurd member present
    | some made => exact ⟨made, rfl, fun time given => before time made given member⟩

theorem stale_eq_true_iff : stale inputs outputs = true ↔ outputs = [] ∨ none ∈ outputs ∨
    ∃ time made, some time ∈ inputs ∧ some made ∈ outputs ∧ made ≤ time := by
  rw [← Bool.not_eq_false, stale_eq_false_iff_lt, not_and_or, not_and_or, not_not, not_not]
  refine or_congr_right (or_congr_right ?_)
  simp only [not_forall, Int.not_lt, exists_prop]

/-- Staleness is strict age: outputs are fresh when there are some, none is missing, and every input that
is there is older than every output. So order and repetition do not matter, more inputs, or more outputs
where there are some, make nothing fresh that was stale, and inputs that are missing make no difference. -/
theorem stale_by_age (inputs outputs : List (Option Instant)) :
    (stale inputs outputs = false ↔ outputs ≠ [] ∧ none ∉ outputs ∧
      ∀ time made, some time ∈ inputs → some made ∈ outputs → time < made) ∧
    (∀ sources results : List (Option Instant), (∀ time, time ∈ sources ↔ time ∈ inputs) →
      (∀ time, time ∈ results ↔ time ∈ outputs) → stale sources results = stale inputs outputs) ∧
    (∀ more, inputs ⊆ more → stale inputs outputs = true → stale more outputs = true) ∧
    (∀ more, outputs ≠ [] → outputs ⊆ more → stale inputs outputs = true →
      stale inputs more = true) ∧
    (∀ sources : List (Option Instant), (∀ time, some time ∈ sources ↔ some time ∈ inputs) →
      stale sources outputs = stale inputs outputs) := by
  refine ⟨stale_eq_false_iff_lt, fun sources results same sameToo => ?_, fun more within stale => ?_,
    fun more some within stale => ?_, fun sources same => ?_⟩
  · have none : results = [] ↔ outputs = [] := by
      simp only [List.eq_nil_iff_forall_not_mem, sameToo]
    rw [Bool.eq_iff_iff, stale_eq_true_iff, stale_eq_true_iff]
    simp only [same, sameToo, none]
  · rw [stale_eq_true_iff] at stale ⊢
    refine stale.imp_right (Or.imp_right ?_)
    rintro ⟨time, made, given, output, le⟩
    exact ⟨time, made, within given, output, le⟩
  · rw [stale_eq_true_iff] at stale ⊢
    rcases stale with nothing | missing | ⟨time, made, given, output, le⟩
    · exact absurd nothing some
    · exact .inr (.inl (within missing))
    · exact .inr (.inr ⟨time, made, given, within output, le⟩)
  · rw [Bool.eq_iff_iff, stale_eq_true_iff, stale_eq_true_iff]
    simp only [same]

/-- An input as new as an output makes it stale, a missing input does not. -/
example : stale [some 10] [some 10] = true ∧ stale [none, some 9] [some 10, some 11] = false := by
  decide

/-- Paths are fresh outputs when there are some and each leads to a file that is newer than every
file an input leads to. -/
theorem filesStale_eq_false_iff {files : FileSystem} {sources results : List Path} :
    filesStale files sources results = false ↔ results ≠ [] ∧ ∀ result ∈ results,
      ∃ made, files.file? result = some made ∧ ∀ source ∈ sources, ∀ file,
        files.file? source = some file → file.modified < made.modified := by
  have before (bound : Instant) : AllBefore (sources.map files.modified?) bound ↔
      ∀ source ∈ sources, ∀ file, files.file? source = some file → file.modified < bound := by
    constructor
    · intro before source member file found
      refine before _ (List.mem_map.mpr ⟨source, member, ?_⟩)
      rw [FileSystem.modified?_eq, found, Option.map_some]
    · intro before time member
      obtain ⟨source, listed, same⟩ := List.mem_map.mp member
      rw [FileSystem.modified?_eq] at same
      obtain ⟨file, found, rfl⟩ := Option.map_eq_some_iff.mp same
      exact before source listed file found
  unfold filesStale
  rw [stale_eq_false_iff, List.forall_mem_map]
  refine and_congr (by simp) (forall_congr' fun result => imp_congr_right fun _ => ?_)
  rw [FileSystem.modified?_eq]
  cases files.file? result with
  | none => simp
  | some file => simp [before]

end Freshness

/-- The file as if it was last changed `now`. -/
def File.stamped (now : Instant) (file : File) : File :=
  { file with modified := now }

namespace FileSystem

variable {now : Instant} {first second : FileSystem} {path : Path}

/-- The second differs from the first in the times of some files, and these are `now`. -/
structure Retimed (now : Instant) (first second : FileSystem) : Prop where
  framed : first.Framed second
  file : ∀ location, second.fileAt? location = first.fileAt? location ∨
    second.fileAt? location = (first.fileAt? location).map (File.stamped now)

namespace Retimed

theorem refl (files : FileSystem) : Retimed now files files :=
  ⟨.refl files, fun _ => .inl rfl⟩

theorem trans {third : FileSystem} (once : Retimed now first second)
    (again : Retimed now second third) : Retimed now first third := by
  refine ⟨once.framed.trans again.framed, fun location => ?_⟩
  rcases again.file location with same | changed
  · rw [same]
    exact once.file location
  · right
    rcases once.file location with same | before
    · rw [changed, same]
    · rw [changed, before, Option.map_map]
      rfl

theorem setModified {files changed : FileSystem} (done : files.setModified path now = .ok changed) :
    Retimed now files changed := by
  obtain ⟨location, file, leads, there, rfl⟩ := setModified_eq_ok.mp done
  have free := free_of_outlet? leads
  refine ⟨.put free _, fun other => ?_⟩
  rw [fileAt?_put free]
  by_cases same : other = location
  · subst same
    rw [if_pos rfl, there]
    exact .inr rfl
  · rw [if_neg same]
    exact .inl rfl

theorem file? (retimed : Retimed now first second) (path : Path) :
    second.file? path = first.file? path ∨
      second.file? path = (first.file? path).map (File.stamped now) := by
  rw [FileSystem.file?, FileSystem.file?, ← retimed.framed.outlet?]
  cases first.outlet? path with
  | none => exact .inl rfl
  | some location => exact retimed.file location

theorem isFile (retimed : Retimed now first second) (path : Path) :
    second.isFile path = first.isFile path := by
  rw [isFile_eq, isFile_eq]
  rcases retimed.file? path with same | changed
  · rw [same]
  · rw [changed, Option.isSome_map]

theorem readText_eq_ok (retimed : Retimed now first second) (path : Path) (text : Text) :
    second.readText path = .ok text ↔ first.readText path = .ok text := by
  rw [FileSystem.readText_eq_ok, FileSystem.readText_eq_ok]
  rcases retimed.file? path with same | changed
  · rw [same]
  · rw [changed]
    cases first.file? path <;> simp [File.stamped]

end Retimed

end FileSystem

namespace Freshness

open FileSystem

/-- Refreshing changes times, to the present. -/
theorem retimed_refresh (now : Instant) (files : FileSystem) (paths : List Path) :
    Retimed now files (refresh now files paths).2 := by
  induction paths generalizing files with
  | nil => exact .refl files
  | cons path rest ih =>
    rw [refresh]
    split
    · exact ih files
    · split
      · exact .refl files
      · exact (Retimed.setModified ‹_›).trans (ih _)

theorem retimed_of_refresh {now : Instant} {files after : FileSystem} {paths : List Path}
    {result : Except (Path × FileError) Nat} (done : refresh now files paths = (result, after)) :
    Retimed now files after := by
  have retimed := retimed_refresh now files paths
  rwa [done] at retimed

private theorem setModified_ok {files : FileSystem} {path : Path} {now : Instant}
    (present : (files.modified? path).isSome) :
    ∃ changed, files.setModified path now = .ok changed := by
  rw [modified?_eq, Option.isSome_map, Option.isSome_iff_exists] at present
  obtain ⟨file, found⟩ := present
  obtain ⟨location, leads, there⟩ := file?_eq_some.mp found
  exact ⟨_, setModified_eq_ok.mpr ⟨location, file, leads, there, rfl⟩⟩

theorem refresh_ok (now : Instant) (files : FileSystem) (paths : List Path) :
    ∃ count, (refresh now files paths).1 = .ok count := by
  induction paths generalizing files with
  | nil => exact ⟨0, rfl⟩
  | cons path rest ih =>
    rw [refresh]
    split
    · exact ih files
    · rename_i present
      rw [Option.isNone_iff_eq_none, ← ne_eq, Option.ne_none_iff_isSome] at present
      obtain ⟨changed, done⟩ := @setModified_ok files path now present
      obtain ⟨count, refreshed⟩ := ih changed
      rw [done]
      exact ⟨count + 1, by simp [refreshed, Except.map]⟩

theorem refresh_ne_error {now : Instant} {files after : FileSystem} {paths : List Path}
    {problem : Path × FileError} : refresh now files paths ≠ (.error problem, after) := by
  intro failed
  obtain ⟨count, done⟩ := refresh_ok now files paths
  rw [failed] at done
  cases done

/-- A file that is refreshed bears the present time. -/
theorem modified_refresh {now : Instant} {files : FileSystem} {paths : List Path} {path : Path}
    {file : File} (member : path ∈ paths)
    (found : (refresh now files paths).2.file? path = some file) : file.modified = now := by
  induction paths generalizing files with
  | nil => cases member
  | cons first rest ih =>
    have whole := (retimed_refresh now files (first :: rest)).isFile path
    rw [isFile_eq, isFile_eq, found] at whole
    rw [refresh] at found
    split at found
    · rename_i missing
      rcases List.mem_cons.mp member with rfl | later
      · rw [modified?_eq, Option.isNone_map] at missing
        simp_all
      · exact ih later found
    · rename_i present
      rw [Option.isNone_iff_eq_none, ← ne_eq, Option.ne_none_iff_isSome] at present
      obtain ⟨changed, done⟩ := @setModified_ok files first now present
      rw [done] at found
      rcases List.mem_cons.mp member with rfl | later
      · obtain ⟨location, old, leads, _, rfl⟩ := setModified_eq_ok.mp done
        have own := file?_put (free_of_outlet? leads) { old with modified := now } path
        rw [if_pos leads] at own
        rcases (retimed_refresh now _ rest).file? path with same | stamped
        · rw [← Option.some.inj (own.symm.trans (same.symm.trans found))]
        · rw [own] at stamped
          rw [← Option.some.inj (stamped.symm.trans found)]
          rfl
      · exact ih later found

/-- A file to which no path leads keeps its time. -/
theorem fileAt?_refresh {now : Instant} {files : FileSystem} {paths : List Path}
    {location : Location} (apart : ∀ path ∈ paths, files.outlet? path ≠ some location) :
    (refresh now files paths).2.fileAt? location = files.fileAt? location := by
  induction paths generalizing files with
  | nil => rfl
  | cons path rest ih =>
    have later := fun other member => apart other (List.mem_cons_of_mem path member)
    rw [refresh]
    split
    · exact ih later
    · split
      · rfl
      · rename_i changed done
        obtain ⟨there, file, leads, _, rfl⟩ := setModified_eq_ok.mp done
        have free := free_of_outlet? leads
        have other : location ≠ there := by
          rintro rfl
          exact apart path List.mem_cons_self leads
        change (refresh now _ rest).2.fileAt? location = _
        rw [ih fun other member => by rw [← (Framed.put free _).outlet?]; exact later other member,
          fileAt?_put free, if_neg other]

end Freshness

end ShaderBuild
