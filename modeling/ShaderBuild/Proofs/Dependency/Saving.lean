import ShaderBuild.Proofs.Dependency.Persistence
import ShaderBuild.Proofs.FileSystem.Advance
/-!
Where a snapshot is kept. Once it has been saved with no link in its way, it can be saved again as
long as the directories and links stay, and no file but its own and the temporary one is touched.
-/
namespace ShaderBuild.Snapshot

open DependencyStore FileSystem

variable {cache : DependencyStore} {world saved : World} {files : FileSystem} {path : Path}
  {beside own : Location}

/-- No link stands at the path of the snapshot or of the temporary file. -/
def Unlinked (files : FileSystem) (path : Path) : Prop :=
  ∀ other ∈ [temporary path, path], ∀ location target,
    files.locate .node other ≠ .ok (.occupied location (.link target))

/-- The snapshot and the temporary file have these locations, in directories that are there. -/
structure Seated (files : FileSystem) (path : Path) (beside own : Location) : Prop where
  directory : ∀ parent, directory? path = some parent → files.Settled parent
  besideNamed : Named (temporary path)
  beside : files.spot? (temporary path) = some beside
  ownNamed : Named path
  own : files.spot? path = some own

/-- A file takes its location and no other file is touched, but that at the temporary one is gone. -/
structure Published (beside own : Location) (before after : World) : Prop where
  clock : after.clock = before.clock
  ticks : before.ticks ≤ after.ticks
  framed : before.files.Framed after.files
  file : ∀ location, location ≠ own →
    after.files.fileAt? location = if location = beside then none else before.files.fileAt? location

/-- A path that leads to neither location leads to the same file. -/
theorem Published.file? {before after : World} (published : Published beside own before after)
    {other : Path} (apart : ∀ location, before.files.outlet? other = some location →
      location ≠ beside ∧ location ≠ own) : after.files.file? other = before.files.file? other := by
  rw [FileSystem.file?, FileSystem.file?, ← published.framed.outlet?]
  cases leads : before.files.outlet? other with
  | none => rfl
  | some location =>
    obtain ⟨differ, differToo⟩ := apart location leads
    exact (published.file location differToo).trans (if_neg differ)

theorem Unlinked.direct (unlinked : Unlinked files path) :
    files.Direct (temporary path) path :=
  ⟨unlinked _ (by simp), fun location target link => absurd link (unlinked _ (by simp) location target)⟩

namespace Seated

theorem framed {second : FileSystem} (seated : Seated files path beside own)
    (same : files.Framed second) : Seated second path beside own :=
  ⟨fun parent top => same.settled (seated.directory parent top), seated.besideNamed,
    (same.spot? _).symm.trans seated.beside, seated.ownNamed,
    (same.spot? _).symm.trans seated.own⟩

theorem unlinked (seated : Seated files path beside own) : Unlinked files path := by
  have spots : ∀ other ∈ [temporary path, path], ∃ location, files.spot? other = some location := by
    simpa using ⟨⟨_, seated.beside⟩, ⟨_, seated.own⟩⟩
  intro other member location target link
  obtain ⟨spot, stands⟩ := spots other member
  rw [spot?, link, outlet_ok] at stands
  cases stands

/-- The directory is not made once more. -/
theorem prepare (seated : Seated world.files path beside own) :
    Snapshot.prepare world path = (.ok (), world) := by
  unfold Snapshot.prepare
  split
  · rfl
  · rename_i parent top
    rw [World.makeDirectories, makeDirectories_of_settled (seated.directory parent top)]

end Seated

theorem advances_prepare (bound : Instant) (written : List Path) (world : World) (path : Path) :
    (prepare world path).2.clock = world.clock ∧ (prepare world path).2.ticks = world.ticks ∧
      Advances bound written world.files (prepare world path).2.files := by
  unfold prepare
  split
  · exact ⟨rfl, rfl, .refl _⟩
  · rename_i parent top
    have advances := @Advances.makeDirectories bound written world.files parent
    rw [World.makeDirectories]
    revert advances
    generalize world.files.makeDirectories parent = made
    obtain ⟨answer, files⟩ := made
    intro advances
    cases answer <;> exact ⟨rfl, rfl, advances⟩

theorem settled_of_prepare {laid : World} (prepared : prepare world path = (.ok (), laid)) :
    ∀ parent, directory? path = some parent → laid.files.Settled parent := by
  intro parent top
  unfold prepare at prepared
  rw [top] at prepared
  dsimp only at prepared
  unfold World.makeDirectories at prepared
  cases made : world.files.makeDirectories parent with
  | mk answer files =>
    rw [made] at prepared
    cases answer with
    | error problem => simp at prepared
    | ok =>
      obtain rfl := (Prod.mk.inj prepared).2
      exact settled_of_makeDirectories made

/-- Where no link is in the way, a snapshot that was saved has found its locations once its directory
was there. -/
theorem seated_of_save (unlinked : Unlinked (prepare world path).2.files path)
    (done : (save cache world path).value = (.ok (), saved)) :
    ∃ beside own, Seated (prepare world path).2.files path beside own ∧
      (save cache (prepare world path).2 path).value = (.ok (), saved) := by
  rw [value_save] at done
  unfold replace at done
  split at done
  · simp at done
  rename_i laid prepared
  rw [prepared] at unlinked ⊢
  split at done
  · simp at done
  rename_i changed written
  obtain ⟨spot, leads, same⟩ := write_eq_ok.mp (writeBeside_eq_ok written)
  obtain ⟨old, node, new, source, target, _⟩ := rename_eq_ok.mp (publish_eq_ok done)
  have framed : laid.files.Framed changed.files := same ▸ Framed.put (free_of_outlet? leads) _
  obtain ⟨besideNamed, _⟩ := renameSource_eq_ok.mp source
  obtain ⟨ownNamed, place, reached, rfl, leaf⟩ := renameTarget_eq_ok.mp target
  have beside := spot?_of_outlet? besideNamed.slash (unlinked _ (by simp)) leads
  have own : laid.files.spot? path = some place.location := by
    rw [framed.spot?]
    exact spot?_of_locate reached
      (fun location target link => unlinked _ (by simp) location target (framed.link.mpr link)) leaf
  have seated : Seated laid.files path spot place.location :=
    ⟨settled_of_prepare prepared, besideNamed, beside, ownNamed, own⟩
  refine ⟨spot, place.location, seated, ?_⟩
  rw [value_save, replace]
  dsimp only
  rw [seated.prepare]
  dsimp only
  rw [written]
  exact done

private theorem published_move {file : File} (free : files.frame? beside = none)
    (freeToo : files.frame? own = none) (clock : Nat → Instant) (ticks : Nat) :
    Published beside own ⟨files, clock, ticks⟩
      ⟨if own = beside then files.put beside (.file file)
        else ((files.put beside (.file file)).erase beside).put own (.file file), clock,
        ticks + 2⟩ := by
  have written := Framed.put free file
  by_cases same : own = beside
  · subst same
    rw [if_pos rfl]
    refine ⟨rfl, Nat.le_add_right _ _, written, fun location other => ?_⟩
    dsimp only
    rw [fileAt?_put free, if_neg other, if_neg other]
  · rw [if_neg same]
    have freed : (files.put beside (.file file)).frame? beside = none := written.frame beside ▸ free
    have erased := Framed.erase freed
    have vacant : ((files.put beside (.file file)).erase beside).frame? own = none := by
      rw [← erased.frame, ← written.frame, freeToo]
    refine ⟨rfl, Nat.le_add_right _ _, (written.trans erased).trans (.put vacant file),
      fun location other => ?_⟩
    dsimp only
    rw [fileAt?_put vacant, if_neg other, fileAt?_erase freed, fileAt?_put free]
    split <;> rfl

/-- A snapshot that has its locations can be saved, whatever is saved. -/
theorem save_of_seated (seated : Seated world.files path beside own) (cache : DependencyStore) :
    ∃ saved, (save cache world path).value = (.ok (), saved) ∧
      Published beside own world saved := by
  obtain ⟨files, clock, ticks⟩ := world
  have leads := outlet?_of_spot? seated.besideNamed seated.beside
  have free := free_of_outlet? leads
  have freeToo := free_of_outlet? (outlet?_of_spot? seated.ownNamed seated.own)
  generalize text : Json.writeFields (ofCache cache) = saved
  generalize written : ({ (files.fileAt? beside).getD ⟨.text [], clock ticks, false, false⟩ with
    contents := .text saved, modified := clock ticks } : File) = file
  have framed := Framed.put free file
  refine ⟨_, ?_, @published_move files beside own file free freeToo clock ticks⟩
  have moved := rename_of_spots seated.besideNamed ((framed.spot? _).symm.trans seated.beside)
    (by rw [fileAt?_put free, if_pos rfl]) seated.ownNamed ((framed.spot? _).symm.trans seated.own)
  have puts : files.write (temporary path) (clock ticks) (.text saved) =
      .ok (files.put beside (.file file)) := write_eq_ok.mpr ⟨beside, leads, by rw [written]⟩
  rw [value_save, text, replace, seated.prepare]
  dsimp only
  rw [writeBeside, World.write, World.change]
  dsimp only [World.now]
  rw [puts]
  dsimp only
  rw [publish, World.rename, World.change]
  dsimp only [World.after]
  rw [moved]

/-- The directories that are made for a snapshot where they are missing: the later ones first. -/
def directories (path : Path) : List Path :=
  match directory? path with
  | none => []
  | some parent => parent :: parent.parents

theorem files_prepare (world : World) (path : Path) :
    (prepare world path).2.files = (world.files.makeChain (directories path)).2 := by
  unfold prepare directories World.makeDirectories makeDirectories
  cases directory? path with
  | none => rw [makeChain]
  | some parent =>
    dsimp only
    generalize world.files.makeChain (parent :: parent.parents) = made
    obtain ⟨answer, files⟩ := made
    cases answer <;> rfl

/-- Where saving may write: where the temporary file leads, and at the two paths themselves. -/
def Places (laid : FileSystem) (path : Path) (location : Location) : Prop :=
  laid.outlet? (temporary path) = some location ∨
    ∃ other ∈ [temporary path, path], ∃ place, laid.locate .node other = .ok place ∧
      place.location = location

/-- What may become of a location while a snapshot is saved, among the files once its directory is
made. -/
inductive Saves (laid : FileSystem) (path : Path) (location : Location) :
    Option Node → Option Node → Prop where
  | same (node : Option Node) : Saves laid path location node node
  | made {directory : Path} (wanted : directory ∈ directories path)
      (leads : laid.locate .target directory = .ok (.occupied location .directory)) :
      Saves laid path location none (some .directory)
  | written {before after : Option Node} (place : Places laid path location)
      (leaf : before ≠ some .directory) (leafToo : after ≠ some .directory) :
      Saves laid path location before after

private theorem Saves.put {laid : FileSystem} {location : Location} {before middle after : Option Node}
    (saves : Saves laid path location before middle) (place : Places laid path location)
    (leaf : middle ≠ some .directory) (leafToo : after ≠ some .directory) :
    Saves laid path location before after := by
  cases saves with
  | same => exact .written place leaf leafToo
  | made => exact absurd rfl leaf
  | written _ leafFirst _ => exact .written place leafFirst leafToo

theorem saves_prepare (world : World) (path : Path) (location : Location) :
    Saves (prepare world path).2.files path location (world.files.node? location)
      ((prepare world path).2.files.node? location) := by
  rw [files_prepare]
  rcases node?_makeChain world.files (directories path) location with
    same | ⟨absent, there, other, member, leads⟩
  · rw [same]
    exact .same _
  · rw [absent, there]
    exact .made member leads

private theorem touches_write {laid changed : World} {text : Text}
    (written : writeBeside laid path text = (.ok (), changed)) (location : Location) :
    changed.files.node? location = laid.files.node? location ∨
      Places laid.files path location ∧ laid.files.node? location ≠ some .directory ∧
        changed.files.node? location ≠ some .directory := by
  rcases node?_write (writeBeside_eq_ok written) location with same | ⟨leads, free, file, there⟩
  · exact .inl same
  · refine .inr ⟨.inl leads, fun directory => ?_, by simp [there]⟩
    simp [frame?, directory] at free

private theorem touches_publish {laid changed : World} {text : Text}
    (written : writeBeside laid path text = (.ok (), changed)) (location : Location) :
    (publish changed path).2.files.node? location = changed.files.node? location ∨
      Places laid.files path location ∧ changed.files.node? location ≠ some .directory ∧
        (publish changed path).2.files.node? location ≠ some .directory := by
  have writes := writes_of_write (writeBeside_eq_ok written)
  obtain ⟨spot, leads, _⟩ := write_eq_ok.mp (writeBeside_eq_ok written)
  unfold publish World.rename World.change
  cases moved : changed.files.rename (temporary path) path with
  | error problem => exact .inl rfl
  | ok files =>
    rcases node?_rename ((writes.framed.outlet? _).symm.trans leads) moved location with
      same | ⟨⟨other, member, place, found, stands⟩, leaf, leafToo⟩
    · exact .inl same
    · obtain ⟨first, foundToo, same⟩ := writes.framed.place found
      exact .inr ⟨.inr ⟨other, member, first, foundToo, same.trans stands⟩, leaf, leafToo⟩

/-- Saving makes the directories of the snapshot, writes at its places, and touches nothing else. -/
theorem saves_replace (world : World) (path : Path) (text : Text) (location : Location) :
    Saves (prepare world path).2.files path location (world.files.node? location)
      ((replace world path text).2.files.node? location) := by
  have prepared := saves_prepare world path location
  unfold replace
  revert prepared
  generalize prepare world path = laid
  obtain ⟨answer, laid⟩ := laid
  intro prepared
  cases answer with
  | error problem => exact prepared
  | ok =>
    dsimp only at prepared ⊢
    cases written : writeBeside laid path text with
    | mk answer changed =>
      cases answer with
      | error problem =>
        dsimp only
        rwa [writeBeside_eq_error written]
      | ok =>
        dsimp only
        rcases touches_write written location with same | ⟨place, leaf, leafToo⟩ <;>
          rcases touches_publish written location with sameToo | ⟨placeToo, leafThere, leafEnd⟩
        · rwa [sameToo, same]
        · exact prepared.put placeToo (same ▸ leafThere) leafEnd
        · rw [sameToo]
          exact prepared.put place leaf leafToo
        · exact prepared.put place leaf leafEnd

end ShaderBuild.Snapshot
