import ShaderBuild.Proofs.Dependency.Saving
import ShaderBuild.Proofs.FileSystem.Name
/-!
Saving that fails or stops on the way. Until the temporary file takes the place of the snapshot, the
file at the path of the snapshot is the one that was there; from then on it is the new one, complete.
-/
namespace ShaderBuild.Snapshot

open FileSystem

variable {path directory : Path} {text : Text} {cache : DependencyStore} {world : World}
  {begun files laid changed : FileSystem} {beside own : Location}

/-- The files of the beginning, with some of the directories for the snapshot made. -/
inductive Made (begun : FileSystem) (path : Path) : FileSystem → Prop where
  | start : Made begun path begun
  | make {laid made : FileSystem} {directory : Path} (earlier : Made begun path laid)
      (wanted : directory ∈ directories path) (done : laid.makeDirectory directory = .ok made) :
      Made begun path made

/-- No link is met: whatever directories have been made, none stands at the path of the snapshot or
of the temporary file. -/
def Bare (begun : FileSystem) (path : Path) : Prop :=
  ∀ laid, Made begun path laid → Unlinked laid path

/-- The file that was at the path is there as it was. -/
def Retains (begun files : FileSystem) (path : Path) : Prop :=
  ∀ file, begun.file? path = some file → files.file? path = some file

/-- Where the saving of a text stands. -/
inductive Stage where
  /-- The directories are made. -/
  | preparing
  /-- The temporary file is written, perhaps in part. -/
  | writing
  /-- The temporary file is complete. -/
  | publishing
  | ended (result : Except BuildFailure Unit)

/-- One step in which a text is saved, or what is left of a step that fails or is cut short. -/
inductive Proceeds (path : Path) (text : Text) : Stage → FileSystem → Stage → FileSystem → Prop where
  | made {files made : FileSystem} {directory : Path} (wanted : directory ∈ directories path)
      (done : files.makeDirectory directory = .ok made) :
      Proceeds path text .preparing files .preparing made
  | unmade {files : FileSystem} (problem : BuildFailure) :
      Proceeds path text .preparing files (.ended (.error problem)) files
  | prepared {files : FileSystem}
      (there : ∀ parent, directory? path = some parent → files.Settled parent) :
      Proceeds path text .preparing files .writing files
  /-- The temporary file is written up to some byte. -/
  | cut {files changed : FileSystem} {now : Instant} (count : Nat)
      (done : files.write (temporary path) now (.ofBytes ((Text.encode text).take count)) =
        .ok changed) : Proceeds path text .writing files .writing changed
  | unwritten {files : FileSystem} (problem : BuildFailure) :
      Proceeds path text .writing files (.ended (.error problem)) files
  | written {files changed : FileSystem} {now : Instant}
      (done : files.write (temporary path) now (.text text) = .ok changed) :
      Proceeds path text .writing files .publishing changed
  | published {files moved : FileSystem} (done : files.rename (temporary path) path = .ok moved) :
      Proceeds path text .publishing files (.ended (.ok ())) moved
  | unpublished {files : FileSystem} (problem : BuildFailure) :
      Proceeds path text .publishing files (.ended (.error problem)) files

/-- What the saving of a text may come to, and so what is left wherever it stops. -/
inductive Reaches (path : Path) (text : Text) (begun : FileSystem) : Stage → FileSystem → Prop where
  | start : Reaches path text begun .preparing begun
  | step {stage next : Stage} {files changed : FileSystem}
      (earlier : Reaches path text begun stage files)
      (proceeds : Proceeds path text stage files next changed) :
      Reaches path text begun next changed

theorem Made.linkless (made : Made begun path laid)
    (none : ∀ location target, begun.node? location ≠ some (.link target)) :
    ∀ location target, laid.node? location ≠ some (.link target) := by
  induction made with
  | start => exact none
  | make earlier wanted done ih =>
    intro location target link
    obtain ⟨place, _, below, rfl, _⟩ := locate_of_makeDirectory done
    rw [node?_put _ below] at link
    split at link
    · cases link
    · exact ih location target link

theorem bare_of_no_links (none : ∀ location target, begun.node? location ≠ some (.link target)) :
    Bare begun path :=
  fun _ made _ _ location target found =>
    made.linkless none location target (node?_of_locate found (by simp [Place.node?]))

/-- The temporary file never stands where the snapshot does: its name is another. -/
theorem apart_of_unlinked (unlinked : Unlinked files path)
    (leads : files.outlet? (temporary path) = some beside)
    (leadsToo : files.outlet? path = some own) : beside ≠ own := by
  rintro rfl
  obtain ⟨base, name, ends, proper⟩ := ends_of_outlet? leadsToo
  have ownName := getLast?_of_spot? ends proper
    (spot?_of_outlet? (outlet?_eq_some.mp leadsToo).2.1 (unlinked _ (by simp)) leadsToo)
  have whole : '/' ∉ (Path.cutName name).1 := Path.not_mem_cutName ends.whole
  rcases ends.withExtension proper "json.tmp" with text | up
  · have endsToo : (temporary path).Ends base
        ((Path.cutName name).1 ++ '.' :: "json.tmp".toList) :=
      ⟨by rw [temporary, text, List.append_assoc], ends.base, by simp [whole],
        by simp [Path.isFiller, List.append_eq_singleton_iff]⟩
    have properToo : (Path.cutName name).1 ++ '.' :: "json.tmp".toList ≠ ['.', '.'] := by
      intro same
      have size := congrArg List.length same
      simp at size
    have besideName := getLast?_of_spot? endsToo properToo
      (spot?_of_outlet? (outlet?_eq_some.mp leads).2.1 (unlinked _ (by simp)) leads)
    have same := Option.some.inj (besideName.symm.trans ownName)
    exact Path.ne_cutName name (by decide) same
  · have endsToo : (temporary path).Ends base ['.', '.'] :=
      ⟨up, ends.base, by decide, by decide⟩
    rw [outlet?_up endsToo] at leads
    cases leads

namespace Retains

theorem refl (files : FileSystem) (path : Path) : Retains files files path :=
  fun _ there => there

/-- A directory is made. -/
theorem made (retains : Retains begun files path) (done : files.makeDirectory directory = .ok changed) :
    Retains begun changed path := by
  intro file there
  obtain ⟨location, leads, present⟩ := file?_eq_some.mp (retains file there)
  have leadsToo := (grown_makeDirectory done).outlet? leads (by rw [present]; rfl)
  exact file?_eq_some.mpr ⟨location, leadsToo, (fileAt?_makeDirectory done location).trans present⟩

/-- The temporary file is written, whatever is written. -/
theorem written (retains : Retains begun files path) (unlinked : Unlinked files path)
    (writes : Writes (temporary path) files changed) : Retains begun changed path := by
  intro file there
  rw [writes.file? fun location leads leadsToo => apart_of_unlinked unlinked leads leadsToo rfl]
  exact retains file there

end Retains

theorem Unlinked.framed (unlinked : Unlinked files path) (framed : files.Framed changed) :
    Unlinked changed path :=
  fun other member location target link =>
    unlinked other member location target (framed.link.mpr link)

/-- What holds where the saving of a text stands. -/
inductive Intact (path : Path) (text : Text) (begun : FileSystem) : Stage → FileSystem → Prop where
  | preparing {files : FileSystem} (made : Made begun path files)
      (retains : Retains begun files path) : Intact path text begun .preparing files
  | writing {files : FileSystem} (unlinked : Unlinked files path)
      (retains : Retains begun files path) : Intact path text begun .writing files
  | publishing {laid files : FileSystem} {now : Instant} (unlinked : Unlinked laid path)
      (done : laid.write (temporary path) now (.text text) = .ok files)
      (retains : Retains begun files path) : Intact path text begun .publishing files
  | replaced {files : FileSystem} (read : files.readText path = .ok text) :
      Intact path text begun (.ended (.ok ())) files
  | failed {files : FileSystem} {problem : BuildFailure} (retains : Retains begun files path) :
      Intact path text begun (.ended (.error problem)) files

/-- A step, whether it is done, fails or is cut short. -/
theorem intact_of_proceeds {stage next : Stage} (bare : Bare begun path)
    (intact : Intact path text begun stage files)
    (proceeds : Proceeds path text stage files next changed) :
    Intact path text begun next changed := by
  cases proceeds with
  | made wanted done =>
    obtain ⟨made, retains⟩ := intact
    exact .preparing (made.make wanted done) (retains.made done)
  | unmade problem =>
    obtain ⟨made, retains⟩ := intact
    exact .failed retains
  | prepared there =>
    obtain ⟨made, retains⟩ := intact
    exact .writing (bare _ made) retains
  | cut count done =>
    cases intact with
    | writing unlinked retains =>
      have writes := writes_of_write done
      exact .writing (unlinked.framed writes.framed) (retains.written unlinked writes)
  | unwritten problem =>
    cases intact with
    | writing unlinked retains => exact .failed retains
  | written done =>
    cases intact with
    | writing unlinked retains =>
      exact .publishing unlinked done (retains.written unlinked (writes_of_write done))
  | published done =>
    cases intact with
    | publishing unlinked written retains =>
      exact .replaced (readText_of_rename unlinked.direct written done)
  | unpublished problem =>
    cases intact with
    | publishing unlinked written retains => exact .failed retains

theorem intact_of_reaches {stage : Stage} (bare : Bare begun path)
    (reaches : Reaches path text begun stage files) : Intact path text begun stage files := by
  induction reaches with
  | start => exact .preparing .start (.refl _ _)
  | step earlier proceeds ih => exact intact_of_proceeds bare ih proceeds

variable {stage : Stage}

private theorem reaches_prepare (world : World) (path : Path) (text : Text) :
    Reaches path text world.files .preparing (prepare world path).2.files := by
  rw [files_prepare]
  exact makeChain_induction (fun _ member _ _ done reaches => reaches.step (.made member done)) .start

/-- To save a text is to take steps to an end. -/
theorem reaches_replace (world : World) (path : Path) (text : Text) :
    Reaches path text world.files (.ended (replace world path text).1)
      (replace world path text).2.files := by
  have prepares := reaches_prepare world path text
  unfold replace
  cases prepared : prepare world path with
  | mk answer laid =>
    rw [prepared] at prepares
    cases answer with
    | error problem => exact prepares.step (.unmade problem)
    | ok =>
      have ready := prepares.step (.prepared (settled_of_prepare prepared))
      dsimp only
      cases written : writeBeside laid path text with
      | mk answer changed =>
        cases answer with
        | error problem =>
          rw [writeBeside_eq_error written]
          exact ready.step (.unwritten problem)
        | ok =>
          have complete := ready.step (.written (writeBeside_eq_ok written))
          dsimp only
          cases published : publish changed path with
          | mk answer moved =>
            cases answer with
            | error problem =>
              rw [publish_eq_error published]
              exact complete.step (.unpublished problem)
            | ok => exact complete.step (.published (publish_eq_ok published))

/-- Saving may fail or stop after any step, with the temporary file written in part. Wherever it does,
the file that was at the path is there as it was, unless the saving has succeeded: then the new
snapshot is there. The new snapshot is complete: it records every entry of the store and nothing else,
and where no dialect has a colon the store is loaded from it. -/
theorem retains_or_replaced (bare : Bare world.files path) :
    (∀ stage files, Reaches path (Json.writeFields (ofCache cache)) world.files stage files →
      (stage = .ended (.ok ()) → files.readText path = .ok (Json.writeFields (ofCache cache)) ∧
        (cache.Sound → cache.Plain → ∃ loaded, (load files path).value = .ok loaded ∧
          ∀ key, loaded.find? key = cache.find? key)) ∧
      (stage ≠ .ended (.ok ()) → Retains world.files files path)) ∧
    Reaches path (Json.writeFields (ofCache cache)) world.files
      (.ended (save cache world path).value.1) (save cache world path).value.2.files ∧
    ∃ fields, Json.readFields? (Json.writeFields (ofCache cache)) = some fields ∧
      Records cache fields := by
  refine ⟨?_, ?_, _, Json.readFields?_writeFields _, records_ofCache cache⟩
  · intro stage files reaches
    cases intact_of_reaches bare reaches with
    | preparing made retains => exact ⟨nofun, fun _ => retains⟩
    | writing unlinked retains => exact ⟨nofun, fun _ => retains⟩
    | publishing unlinked done retains => exact ⟨nofun, fun _ => retains⟩
    | replaced read =>
      exact ⟨fun _ => ⟨read, load_of_readText read⟩, fun other => absurd rfl other⟩
    | failed retains => exact ⟨nofun, fun _ => retains⟩
  · rw [value_save]
    exact reaches_replace world path _

/-- A file system with a snapshot of nothing. -/
def heldFiles : FileSystem where
  entries := [(["deps.json".toList], .file ⟨.text "\x7b\x7d".toList, 5, false, false⟩)]
  workingLocation := []
  workingDirectory := Path.of "/"

def heldWorld : World :=
  ⟨heldFiles, fun tick => tick + 10, 0⟩

/-- The files when the temporary file has been written up to its first byte. -/
def cutFiles : FileSystem :=
  heldFiles.put ["deps.json.tmp".toList] (.file ⟨.text "\x7b".toList, 10, false, false⟩)

private theorem bare_held : Bare heldWorld.files barePath := by
  refine bare_of_no_links fun location target => ?_
  unfold FileSystem.node?
  split
  · simp
  · change List.lookup location [_] ≠ _
    rw [List.lookup_cons]
    split <;> simp

private theorem reaches_cut :
    Reaches barePath (Json.writeFields (ofCache (singleStore "410"))) heldWorld.files .writing
      cutFiles := by
  have there : ∀ parent, directory? barePath = some parent → heldFiles.Settled parent := by
    intro parent top
    have root : directory? barePath = some (Path.of "/") := by cbv
    obtain rfl := Option.some.inj (root.symm.trans top)
    exact .inr (.inl (by cbv))
  have done : heldFiles.write (temporary barePath) 10 (.ofBytes ((Text.encode
      (Json.writeFields (ofCache (singleStore "410")))).take 1)) = .ok cutFiles := by cbv
  exact (Reaches.start.step (.prepared there)).step (.cut 1 done)

/-- The saving of a set stops after the first byte and the old snapshot is there; it is done, and the
new one is, from which the set is loaded. -/
theorem retains_or_replaced_held :
    Reaches barePath (Json.writeFields (ofCache (singleStore "410"))) heldWorld.files .writing
        cutFiles ∧
      cutFiles.file? barePath = some ⟨.text "\x7b\x7d".toList, 5, false, false⟩ ∧
      ∃ saved, (save (singleStore "410") heldWorld barePath).value = (.ok (), saved) ∧
        saved.files.readText barePath =
          .ok (Json.writeFields (ofCache (singleStore "410"))) ∧
        (∃ loaded, (load saved.files barePath).value = .ok loaded ∧
          ∀ key, loaded.find? key = (singleStore "410").find? key) ∧
        ∃ fields, Json.readFields? (Json.writeFields (ofCache (singleStore "410"))) = some fields ∧
          Records (singleStore "410") fields := by
  have old : heldWorld.files.file? barePath = some ⟨.text "\x7b\x7d".toList, 5, false, false⟩ := by
    cbv
  have answer : (save (singleStore "410") heldWorld barePath).value.1 = .ok () := by cbv
  have sound : (singleStore "410").Sound :=
    DependencyStore.sound_empty.insert ⟨by decide, by decide⟩ (PathSet.distinct_ofList _)
  have plain : (singleStore "410").Plain := by
    intro entry member
    obtain rfl := List.mem_singleton.mp member
    decide
  obtain ⟨anywhere, reaches, records⟩ :=
    @retains_or_replaced barePath (singleStore "410") heldWorld bare_held
  obtain ⟨held, loads⟩ := (anywhere _ _ reaches).1 (congrArg Stage.ended answer)
  exact ⟨reaches_cut, (anywhere _ _ reaches_cut).2 (by simp) _ old, _, Prod.ext answer rfl, held,
    loads sound plain, records⟩

end ShaderBuild.Snapshot
