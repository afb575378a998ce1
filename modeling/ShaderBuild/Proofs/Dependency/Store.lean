import ShaderBuild.Dependency.Store
import ShaderBuild.Proofs.Dependency.Key
/-!
A store as a map: what is found under a key depends on the identity of the key alone, and storing
changes what is found under one.
-/
namespace ShaderBuild.DependencyStore

variable {cache : DependencyStore} {entry : DependencyKey × PathSet}
  {entries : List (DependencyKey × PathSet)} {key : DependencyKey} {set : PathSet}

/-- The identities of the keys, in order. -/
def identities (entries : List (DependencyKey × PathSet)) :
    List (List Component × Text × Variant) :=
  entries.map fun entry => entry.1.identity

@[simp] theorem identities_nil : identities [] = [] := rfl

@[simp] theorem identities_cons :
    identities (entry :: entries) = entry.1.identity :: identities entries := rfl

/-- No two keys of the store are the same. -/
def Distinct (cache : DependencyStore) : Prop :=
  (identities cache.entries).Nodup

theorem distinct_empty : empty.Distinct :=
  List.nodup_nil

private theorem find?_nil : find? ⟨[]⟩ key = none := rfl

private theorem find?_cons :
    find? ⟨entry :: entries⟩ key =
      if entry.1.identity = key.identity then some entry.2 else find? ⟨entries⟩ key := by
  unfold find?
  dsimp only
  rw [List.find?_cons]
  by_cases same : entry.1.identity = key.identity
  · simp [DependencyKey.same_iff.mpr same, same]
  · have differ : entry.1.same key = false := by
      simpa using fun equal => same (DependencyKey.same_iff.mp equal)
    simp [differ, same]

private theorem store_cons :
    store key set (entry :: entries) =
      if entry.1.identity = key.identity then (entry.1, set) :: entries
      else entry :: store key set entries := by
  rw [store]
  simp only [DependencyKey.same_iff]

theorem find?_eq_some (distinct : cache.Distinct) :
    cache.find? key = some set ↔
      ∃ known, (known, set) ∈ cache.entries ∧ known.identity = key.identity := by
  obtain ⟨entries⟩ := cache
  unfold Distinct at distinct
  dsimp only at distinct ⊢
  induction entries with
  | nil => simp [find?_nil]
  | cons entry rest ih =>
    obtain ⟨first, own⟩ := entry
    rw [identities_cons, List.nodup_cons] at distinct
    rw [find?_cons]
    by_cases same : first.identity = key.identity
    · rw [if_pos same]
      constructor
      · intro equal
        obtain rfl := Option.some.inj equal
        exact ⟨first, List.mem_cons_self, same⟩
      · rintro ⟨known, member, equal⟩
        rcases List.mem_cons.mp member with this | later
        · rw [(Prod.mk.inj this).2]
        · exact absurd (List.mem_map.mpr ⟨_, later, equal.trans same.symm⟩) distinct.1
    · rw [if_neg same, ih distinct.2]
      constructor
      · rintro ⟨known, later, equal⟩
        exact ⟨known, List.mem_cons_of_mem _ later, equal⟩
      · rintro ⟨known, member, equal⟩
        rcases List.mem_cons.mp member with this | later
        · exact absurd ((Prod.mk.inj this).1 ▸ equal) same
        · exact ⟨known, later, equal⟩

theorem find?_perm {first second : DependencyStore} (distinct : first.Distinct)
    (same : first.entries.Perm second.entries) (key : DependencyKey) :
    first.find? key = second.find? key := by
  have distinctToo : second.Distinct := (same.map _).nodup_iff.mp distinct
  ext set
  rw [find?_eq_some distinct, find?_eq_some distinctToo]
  simp only [same.mem_iff]

/-- Storing changes what is found under one key. -/
theorem find?_insert (cache : DependencyStore) (key other : DependencyKey) (set : PathSet) :
    (cache.insert key set).find? other =
      if key.identity = other.identity then some set else cache.find? other := by
  obtain ⟨entries⟩ := cache
  change find? ⟨store key set entries⟩ other = _
  induction entries with
  | nil => exact find?_cons
  | cons entry rest ih =>
    rw [store_cons]
    by_cases own : entry.1.identity = key.identity
    · rw [if_pos own, find?_cons, find?_cons, own]
      by_cases same : key.identity = other.identity
      · rw [if_pos same, if_pos same]
      · rw [if_neg same, if_neg same, if_neg same]
    · rw [if_neg own, find?_cons, find?_cons, ih]
      by_cases here : entry.1.identity = other.identity
      · have differ : key.identity ≠ other.identity := fun same => own (here.trans same.symm)
        rw [if_pos here, if_neg differ, if_pos here]
      · rw [if_neg here, if_neg here]

/-- What was stored under a key is found under it. -/
theorem find?_insert_self : (cache.insert key set).find? key = some set := by
  rw [find?_insert, if_pos rfl]

private theorem identities_store (key : DependencyKey) (set : PathSet)
    (entries : List (DependencyKey × PathSet)) :
    identities (store key set entries) =
      if key.identity ∈ identities entries then identities entries
      else identities entries ++ [key.identity] := by
  induction entries with
  | nil => rfl
  | cons entry rest ih =>
    rw [store_cons]
    by_cases own : entry.1.identity = key.identity
    · rw [if_pos own, if_pos (by simp [own])]
      rfl
    · rw [if_neg own, identities_cons, identities_cons, ih]
      by_cases present : key.identity ∈ identities rest
      · rw [if_pos present, if_pos (List.mem_cons_of_mem _ present)]
      · rw [if_neg present, if_neg (by simp [present, Ne.symm own])]
        rfl

theorem Distinct.insert (distinct : cache.Distinct) (key : DependencyKey) (set : PathSet) :
    (cache.insert key set).Distinct := by
  change (identities (store key set cache.entries)).Nodup
  rw [identities_store]
  split
  · exact distinct
  · rename_i absent
    rw [List.nodup_append]
    refine ⟨distinct, by simp, fun known member added new => ?_⟩
    obtain rfl := List.mem_singleton.mp new
    exact fun same => absent (same ▸ member)

/-- An entry after storing is an old one, or has the set that was stored. -/
theorem mem_insert (member : entry ∈ (cache.insert key set).entries) :
    entry ∈ cache.entries ∨
      entry.2 = set ∧ (entry.1 = key ∨ ∃ old ∈ cache.entries, old.1 = entry.1) := by
  obtain ⟨entries⟩ := cache
  change entry ∈ store key set entries at member
  induction entries with
  | nil =>
    obtain rfl := List.mem_singleton.mp member
    exact .inr ⟨rfl, .inl rfl⟩
  | cons first rest ih =>
    rw [store_cons] at member
    split at member
    · rcases List.mem_cons.mp member with rfl | later
      · exact .inr ⟨rfl, .inr ⟨first, List.mem_cons_self, rfl⟩⟩
      · exact .inl (List.mem_cons_of_mem _ later)
    · rcases List.mem_cons.mp member with rfl | later
      · exact .inl List.mem_cons_self
      · rcases ih later with old | ⟨stored, same | ⟨known, inside, same⟩⟩
        · exact .inl (List.mem_cons_of_mem _ old)
        · exact .inr ⟨stored, .inl same⟩
        · exact .inr ⟨stored, .inr ⟨known, List.mem_cons_of_mem _ inside, same⟩⟩

theorem insert_fresh (fresh : key.identity ∉ identities cache.entries) (set : PathSet) :
    (cache.insert key set).entries = cache.entries ++ [(key, set)] := by
  obtain ⟨entries⟩ := cache
  change store key set entries = _
  induction entries with
  | nil => rfl
  | cons entry rest ih =>
    rw [identities_cons, List.mem_cons, not_or] at fresh
    rw [store_cons, if_neg (Ne.symm fresh.1), ih fresh.2]
    rfl

theorem find?_eq_none : cache.find? key = none ↔ key.identity ∉ identities cache.entries := by
  obtain ⟨entries⟩ := cache
  induction entries with
  | nil => simp [find?_nil]
  | cons entry rest ih =>
    rw [find?_cons, identities_cons, List.mem_cons, not_or, ← ih]
    by_cases same : entry.1.identity = key.identity
    · simp [same]
    · simp [same, Ne.symm same]

theorem insert_of_find? (known : cache.find? key = some set) : cache.insert key set = cache := by
  obtain ⟨entries⟩ := cache
  change (⟨store key set entries⟩ : DependencyStore) = ⟨entries⟩
  congr 1
  induction entries with
  | nil => simp [find?_nil] at known
  | cons entry rest ih =>
    rw [find?_cons] at known
    rw [store_cons]
    by_cases same : entry.1.identity = key.identity
    · rw [if_pos same] at known ⊢
      rw [← Option.some.inj known]
    · rw [if_neg same] at known ⊢
      rw [ih known]

end ShaderBuild.DependencyStore
