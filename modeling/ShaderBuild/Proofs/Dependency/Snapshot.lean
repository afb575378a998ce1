import ShaderBuild.Dependency.Snapshot
import ShaderBuild.Proofs.Dependency.PathSet
import ShaderBuild.Proofs.Dependency.Store
import ShaderBuild.Proofs.Json.RoundTrip
/-!
The text of a snapshot is a complete record of a store, and the store is read back from it as long as no
dialect has a colon.
-/
namespace ShaderBuild

namespace DependencyStore

/-- A store as the program makes it. -/
structure Sound (cache : DependencyStore) : Prop where
  distinct : cache.Distinct
  keys : ∀ entry ∈ cache.entries, entry.1.Filled
  sets : ∀ entry ∈ cache.entries, entry.2.Distinct

/-- No dialect of the store has a colon. -/
def Plain (cache : DependencyStore) : Prop :=
  ∀ entry ∈ cache.entries, ':' ∉ entry.1.dialect

variable {cache : DependencyStore} {key : DependencyKey} {set : PathSet}

theorem sound_empty : empty.Sound :=
  ⟨distinct_empty, by simp [empty], by simp [empty]⟩

theorem Sound.insert (sound : cache.Sound) (filled : key.Filled) (distinct : set.Distinct) :
    (cache.insert key set).Sound := by
  refine ⟨sound.distinct.insert key set, fun entry member => ?_, fun entry member => ?_⟩
  · rcases mem_insert member with old | ⟨_, same | ⟨known, old, same⟩⟩
    · exact sound.keys entry old
    · exact same ▸ filled
    · exact same ▸ sound.keys known old
  · rcases mem_insert member with old | ⟨same, _⟩
    · exact sound.sets entry old
    · exact same ▸ distinct

theorem Plain.insert (plain : cache.Plain) (own : ':' ∉ key.dialect) (set : PathSet) :
    (cache.insert key set).Plain := by
  intro entry member
  rcases mem_insert member with old | ⟨_, same | ⟨known, old, same⟩⟩
  · exact plain entry old
  · exact same ▸ own
  · exact same ▸ plain known old

end DependencyStore

namespace Snapshot

open DependencyStore

variable {cache loaded : DependencyStore} {fields : Snapshot}

/-- What is written of an entry. -/
def field (entry : DependencyKey × PathSet) : Text × List Text :=
  (entry.1.text, entry.2.paths.map Path.text)

/-- What a field is read as. -/
def readField? (field : Text × List Text) : Option (DependencyKey × PathSet) :=
  (DependencyKey.parse field.1).toOption.map fun key =>
    (key, PathSet.ofList (field.2.map Path.mk))

theorem readField?_field {entry : DependencyKey × PathSet} (filled : entry.1.Filled)
    (plain : ':' ∉ entry.1.dialect) (distinct : entry.2.Distinct) :
    readField? (field entry) = some entry := by
  obtain ⟨key, set⟩ := entry
  have paths : (set.paths.map Path.text).map Path.mk = set.paths := by
    rw [List.map_map]
    exact List.map_id _
  dsimp only [readField?, field]
  rw [DependencyKey.parse_text filled plain, paths, PathSet.ofList_paths distinct]
  rfl

private theorem unite_eq (fields united : Snapshot)
    (distinct : ((united ++ fields).map Prod.fst).Nodup) :
    fields.foldl (fun united field => united.filter (fun other => other.1 != field.1) ++ [field])
      united = united ++ fields := by
  induction fields generalizing united with
  | nil => simp
  | cons field rest ih =>
    have shape : united ++ field :: rest = (united ++ [field]) ++ rest := by simp
    have kept : united.filter (fun other => other.1 != field.1) = united := by
      rw [List.filter_eq_self]
      intro other member
      rw [List.map_append, List.nodup_append] at distinct
      have differ := distinct.2.2 other.1 (List.mem_map.mpr ⟨other, member, rfl⟩) field.1 (by simp)
      simpa using differ
    rw [shape] at distinct ⊢
    rw [List.foldl_cons, kept, ih _ distinct]

/-- A complete record of a store: the fields are sorted by their texts, no two have one text, each is
that of an entry, and every entry is there under its text. -/
structure Records (cache : DependencyStore) (fields : Snapshot) : Prop where
  ordered : fields.Pairwise fun first second => Text.order first.1 second.1 = .lt
  listed : ∀ found ∈ fields, ∃ entry ∈ cache.entries, found = field entry
  present : ∀ entry ∈ cache.entries, ∃ found ∈ fields, found.1 = entry.1.text

private theorem unite_keeps (fields united : Snapshot) (distinct : (united.map Prod.fst).Nodup) :
    let whole := fields.foldl
      (fun united field => united.filter (fun other => other.1 != field.1) ++ [field]) united
    (whole.map Prod.fst).Nodup ∧ (∀ found ∈ whole, found ∈ united ++ fields) ∧
      ∀ field ∈ united ++ fields, ∃ found ∈ whole, found.1 = field.1 := by
  induction fields generalizing united with
  | nil => exact ⟨distinct, by simp, fun field member => ⟨field, by simpa using member, rfl⟩⟩
  | cons field rest ih =>
    have others : ∀ other ∈ united.filter fun other => other.1 != field.1,
        other ∈ united ∧ other.1 ≠ field.1 := by
      intro other member
      simpa using member
    have next : ((united.filter (fun other => other.1 != field.1) ++ [field]).map Prod.fst).Nodup := by
      rw [List.map_append, List.nodup_append]
      refine ⟨distinct.sublist (List.filter_sublist.map _), by simp, ?_⟩
      intro text member last same
      obtain ⟨other, inside, rfl⟩ := List.mem_map.mp member
      rw [List.map_singleton, List.mem_singleton] at same
      exact fun equal => (others other inside).2 (equal.trans same)
    obtain ⟨apart, made, kept⟩ := ih _ next
    refine ⟨apart, fun found member => ?_, fun one member => ?_⟩
    · have within := made found member
      simp only [List.mem_append, List.mem_cons, List.mem_filter] at within ⊢
      tauto
    · by_cases same : one.1 = field.1
      · obtain ⟨found, inside, equal⟩ := kept field (by simp)
        exact ⟨found, inside, equal.trans same.symm⟩
      · apply kept
        simp only [List.mem_append, List.mem_cons, List.mem_filter] at member ⊢
        rcases member with old | rfl | later
        · exact .inl (.inl ⟨old, by simpa using same⟩)
        · exact absurd rfl same
        · exact .inr later

instance : Std.TransCmp Text.order :=
  inferInstanceAs (Std.TransCmp (List.compareLex compare))

instance : Std.LawfulEqCmp Text.order :=
  inferInstanceAs (Std.LawfulEqCmp (List.compareLex compare))

theorem ordered_sorted (fields : Snapshot) :
    (sorted fields).Pairwise fun first second => Text.order first.1 second.1 = .lt := by
  have distinct : ((unite fields).map Prod.fst).Nodup := (unite_keeps fields [] (by simp)).1
  have apart : ((sorted fields).map Prod.fst).Nodup :=
    ((List.mergeSort_perm (unite fields) _).map Prod.fst).nodup_iff.mpr distinct
  have rising : (sorted fields).Pairwise fun first second =>
      (Text.order first.1 second.1).isLE = true := by
    apply List.pairwise_mergeSort
    · intro first second third
      exact Std.TransCmp.isLE_trans
    · intro first second
      have swapped : Text.order second.1 first.1 = (Text.order first.1 second.1).swap :=
        Std.OrientedCmp.eq_swap
      rw [swapped]
      cases Text.order first.1 second.1 <;> rfl
  refine (rising.and (List.pairwise_map.mp apart)).imp ?_
  intro first second both
  obtain ⟨le, differ⟩ := both
  cases compared : Text.order first.1 second.1 with
  | lt => rfl
  | eq => exact absurd (Std.LawfulEqCmp.eq_of_compare compared) differ
  | gt => simp [compared] at le

theorem records_ofCache (cache : DependencyStore) : Records cache (ofCache cache) := by
  obtain ⟨-, made, kept⟩ := unite_keeps (cache.entries.map field) [] (by simp)
  have same (found : Text × List Text) :
      found ∈ ofCache cache ↔ found ∈ unite (cache.entries.map field) :=
    (List.mergeSort_perm (unite (cache.entries.map field)) _).mem_iff
  refine ⟨ordered_sorted _, fun found member => ?_, fun entry member => ?_⟩
  · obtain ⟨entry, inside, equal⟩ := List.mem_map.mp (made found ((same found).mp member))
    exact ⟨entry, inside, equal.symm⟩
  · obtain ⟨found, inside, equal⟩ := kept (field entry) (List.mem_map_of_mem member)
    exact ⟨found, (same found).mpr inside, equal⟩

theorem sorted_perm (distinct : (fields.map Prod.fst).Nodup) : (sorted fields).Perm fields := by
  have whole : unite fields = fields := unite_eq fields [] distinct
  unfold sorted
  rw [whole]
  exact List.mergeSort_perm fields _

/-- Fields that are keys of different identities become entries in their order. -/
theorem fill_eq (parses : ∀ field ∈ fields, (readField? field).isSome)
    (distinct : (identities (cache.entries ++ fields.filterMap readField?)).Nodup) :
    fill cache fields = .ok ⟨cache.entries ++ fields.filterMap readField?⟩ := by
  induction fields generalizing cache with
  | nil => simp [fill]
  | cons field rest ih =>
    obtain ⟨text, paths⟩ := field
    cases read : DependencyKey.parse text with
    | error problem =>
      have parsed := parses (text, paths) List.mem_cons_self
      simp [readField?, read, Except.toOption] at parsed
    | ok key =>
      have first : readField? (text, paths) = some (key, PathSet.ofList (paths.map Path.mk)) := by
        simp [readField?, read, Except.toOption]
      rw [List.filterMap_cons_some first] at distinct ⊢
      have fresh : key.identity ∉ identities cache.entries := by
        intro member
        rw [identities, List.map_append, List.nodup_append] at distinct
        exact distinct.2.2 _ member key.identity (by simp) rfl
      have added := insert_fresh fresh (PathSet.ofList (paths.map Path.mk))
      have shape (last : List (DependencyKey × PathSet)) :
          cache.entries ++ (key, PathSet.ofList (paths.map Path.mk)) :: last =
            (cache.insert key (PathSet.ofList (paths.map Path.mk))).entries ++ last := by
        simp [added]
      rw [fill, read]
      dsimp only
      rw [shape] at distinct ⊢
      exact ih (fun field member => parses field (List.mem_cons_of_mem _ member)) distinct

theorem sound_fill (sound : cache.Sound) (plain : cache.Plain)
    (filled : fill cache fields = .ok loaded) : loaded.Sound ∧ loaded.Plain := by
  induction fields generalizing cache with
  | nil =>
    rw [fill] at filled
    obtain rfl := Except.ok.inj filled
    exact ⟨sound, plain⟩
  | cons field rest ih =>
    obtain ⟨text, paths⟩ := field
    rw [fill] at filled
    cases read : DependencyKey.parse text with
    | error problem => simp [read] at filled
    | ok key =>
      rw [read] at filled
      obtain ⟨full, own⟩ := DependencyKey.filled_of_parse read
      exact ih (sound.insert full (PathSet.distinct_ofList _)) (plain.insert own _) filled

theorem sound_read {text : Text} (done : read text = .ok loaded) : loaded.Sound ∧ loaded.Plain := by
  unfold read at done
  split at done
  · simp at done
  · split at done
    · rename_i filled
      obtain rfl := Except.ok.inj done
      exact sound_fill sound_empty (by simp [Plain, empty]) filled
    · simp at done

theorem texts_distinct (sound : cache.Sound) (plain : cache.Plain) :
    ((cache.entries.map field).map Prod.fst).Nodup := by
  rw [List.map_map]
  refine List.pairwise_map.mpr (List.Pairwise.imp_of_mem ?_ (List.pairwise_map.mp sound.distinct))
  intro first second member memberToo differ same
  have equal : first.1 = second.1 :=
    DependencyKey.eq_of_text_eq (sound.keys first member) (sound.keys second memberToo)
      (plain first member) (plain second memberToo) same
  exact differ (congrArg DependencyKey.identity equal)

/-- A store whose dialects have no colon is read back from its snapshot, up to the order of its
entries. -/
theorem read_writeFields (sound : cache.Sound) (plain : cache.Plain) :
    ∃ loaded, read (Json.writeFields (ofCache cache)) = .ok loaded ∧
      loaded.entries.Perm cache.entries := by
  have texts := texts_distinct sound plain
  have written : (ofCache cache).Perm (cache.entries.map field) := sorted_perm texts
  have again : (sorted (ofCache cache)).Perm (cache.entries.map field) :=
    (sorted_perm ((written.map _).nodup_iff.mpr texts)).trans written
  have reads (entry : DependencyKey × PathSet) (member : entry ∈ cache.entries) :
      readField? (field entry) = some entry :=
    readField?_field (sound.keys entry member) (plain entry member) (sound.sets entry member)
  have back : (cache.entries.map field).filterMap readField? = cache.entries := by
    rw [List.filterMap_map]
    exact (List.filterMap_congr (g := some) reads).trans List.filterMap_some
  have entries : ((sorted (ofCache cache)).filterMap readField?).Perm cache.entries := by
    have mapped := again.filterMap readField?
    rwa [back] at mapped
  refine ⟨⟨(sorted (ofCache cache)).filterMap readField?⟩, ?_, entries⟩
  unfold read
  rw [Json.readFields?_writeFields]
  dsimp only
  have parses : ∀ found ∈ sorted (ofCache cache), (readField? found).isSome := by
    intro found member
    obtain ⟨entry, inside, rfl⟩ := List.mem_map.mp (again.mem_iff.mp member)
    rw [reads entry inside]
    rfl
  have distinct : (identities (DependencyStore.empty.entries ++
      (sorted (ofCache cache)).filterMap readField?)).Nodup :=
    (entries.map _).nodup_iff.mpr sound.distinct
  rw [fill_eq parses distinct]
  rfl

end Snapshot

end ShaderBuild
