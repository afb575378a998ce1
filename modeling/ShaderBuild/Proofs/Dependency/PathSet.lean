import ShaderBuild.Dependency.Store
import ShaderBuild.Proofs.Dependency.Key
import ShaderBuild.Proofs.Expansion.Following
/-!
No set that is made by adding paths lists a path twice, and so its list makes the set again.
-/
namespace ShaderBuild

namespace PathSet

variable {set : PathSet} {path : Path}

/-- No two paths of the set are the same. -/
def Distinct (set : PathSet) : Prop :=
  (set.paths.map Path.components).Nodup

theorem contains_iff :
    set.contains path = true ↔ path.components ∈ set.paths.map Path.components := by
  simp [contains, Path.same_iff]

theorem distinct_empty : empty.Distinct :=
  List.nodup_nil

theorem Distinct.insert (distinct : set.Distinct) (path : Path) : (set.insert path).Distinct := by
  unfold PathSet.insert
  split
  · exact distinct
  · rename_i absent
    rw [contains_iff] at absent
    rw [Distinct, List.map_append, List.nodup_append]
    refine ⟨distinct, by simp, fun known member added new => ?_⟩
    obtain rfl : added = path.components := by simpa using new
    exact fun same => absent (same ▸ member)

theorem Distinct.extend (distinct : set.Distinct) (paths : List Path) :
    (set.extend paths).Distinct := by
  induction paths generalizing set with
  | nil => exact distinct
  | cons path paths ih => exact ih (distinct.insert path)

theorem distinct_ofList (paths : List Path) : (ofList paths).Distinct :=
  distinct_empty.extend paths

private theorem extend_of_nodup {known rest : List Path}
    (distinct : ((known ++ rest).map Path.components).Nodup) :
    (⟨known⟩ : PathSet).extend rest = ⟨known ++ rest⟩ := by
  induction rest generalizing known with
  | nil => rw [List.append_nil]; rfl
  | cons path rest ih =>
    have shape : known ++ path :: rest = (known ++ [path]) ++ rest := by simp
    rw [shape] at distinct ⊢
    have added : (⟨known⟩ : PathSet).insert path = ⟨known ++ [path]⟩ := by
      unfold PathSet.insert
      rw [if_neg]
      rw [contains_iff]
      intro member
      rw [List.map_append, List.map_append, List.nodup_append, List.nodup_append] at distinct
      exact distinct.1.2.2 _ member path.components (by simp) rfl
    rw [← ih distinct, ← added]
    rfl

theorem ofList_paths (distinct : set.Distinct) : ofList set.paths = set :=
  @extend_of_nodup [] set.paths distinct

end PathSet

variable {files : FileSystem} {search : SearchPath}

theorem Include.distinct_outcome {errands : List Errand} {set included : PathSet}
    (distinct : set.Distinct) (done : outcome files search errands set = .ok included) :
    included.Distinct := by
  induction errands, set using follow.induct files search with
  | case1 set =>
    rw [outcome_nil] at done
    exact Except.ok.inj done ▸ distinct
  | case2 offset rest set ih =>
    rw [outcome_note] at done
    exact ih distinct done
  | case3 path name rest set missing =>
    rw [outcome_unresolved _ missing] at done
    simp at done
  | case4 path name rest set found resolved present ih =>
    rw [outcome_present _ resolved present] at done
    exact ih distinct done
  | case5 path name rest set found resolved fresh ih =>
    rw [outcome_read _ resolved (by simpa using fresh)] at done
    obtain ⟨text, _, done⟩ := bind_eq_ok.mp done
    exact ih text (distinct.insert found) done

theorem distinct_discover {source : Path} {headers : List Path} {set : PathSet}
    (found : ((discover files search source headers).run files).value = .ok set) :
    set.Distinct := by
  rw [value_discover] at found
  obtain ⟨text, _, found⟩ := bind_eq_ok.mp found
  obtain ⟨included, collected, found⟩ := bind_eq_ok.mp found
  obtain rfl := Except.ok.inj found
  exact ((Include.distinct_outcome PathSet.distinct_empty collected).insert _).extend _

end ShaderBuild
