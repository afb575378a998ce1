import ShaderBuild.Proofs.Build.Pipeline
import ShaderBuild.Proofs.FileSystem.Name
/-!
The files of two commands. Their paths are those of the bases with suffixes, so they are different where
no base is the other one with a suffix; and no file is of both where, besides, the bases do not come to
one place on different ways, and no artifact is a link.
-/
namespace ShaderBuild

namespace Artifacts

/-- What stands behind the base in the paths of all artifacts but the first. -/
def suffixes : List String :=
  [".spv", ".opt.spv", ".json", ".glsl"]

theorem mem_all {artifacts : Artifacts} {path : Path} :
    path ∈ artifacts.all ↔
      path = artifacts.base ∨ ∃ suffix ∈ suffixes, path = artifacts.base.extend suffix := by
  simp [all, suffixes, expanded, compiled, optimized, reflection, crossCompiled]

theorem plain_of_mem_suffixes {suffix : String} (member : suffix ∈ suffixes) :
    '/' ∉ suffix.toList ∧ 2 < suffix.toList.length := by
  revert suffix
  decide

/-- Two different suffixes lead to one text only where `.opt` makes up for the difference. -/
theorem append_suffix {first second : Text} {suffix other : String} (member : suffix ∈ suffixes)
    (memberToo : other ∈ suffixes) (same : first ++ suffix.toList = second ++ other.toList) :
    first = second ∧ suffix = other ∨
      first = second ++ ".opt".toList ∧ suffix = ".spv" ∧ other = ".opt.spv" ∨
        second = first ++ ".opt".toList ∧ other = ".spv" ∧ suffix = ".opt.spv" := by
  have last : suffix.toList.getLast? = other.toList.getLast? := by
    have ends := congrArg List.getLast? same
    have some {own : String} (member : own ∈ suffixes) : own.toList ≠ [] := by
      intro none
      have long := (plain_of_mem_suffixes member).2
      simp [none] at long
    rwa [List.getLast?_append_of_ne_nil _ (some member),
      List.getLast?_append_of_ne_nil _ (some memberToo)] at ends
  have alike : ∀ suffix ∈ suffixes, ∀ other ∈ suffixes,
      suffix.toList.getLast? = other.toList.getLast? → suffix = other ∨
        suffix = ".spv" ∧ other = ".opt.spv" ∨ other = ".spv" ∧ suffix = ".opt.spv" := by decide
  have longer (text : Text) : text ++ ".opt.spv".toList = text ++ ".opt".toList ++ ".spv".toList :=
    (List.append_assoc text ".opt".toList ".spv".toList).symm
  rcases alike suffix member other memberToo last with rfl | ⟨rfl, rfl⟩ | ⟨rfl, rfl⟩
  · exact .inl ⟨List.append_cancel_right same, rfl⟩
  · rw [longer] at same
    exact .inr (.inl ⟨List.append_cancel_right same, rfl, rfl⟩)
  · rw [longer] at same
    exact .inr (.inr ⟨List.append_cancel_right same.symm, rfl, rfl⟩)

theorem exists_suffix {first second : Text} {suffix other : String} (member : suffix ∈ "" :: suffixes)
    (memberToo : other ∈ "" :: suffixes) (same : first ++ suffix.toList = second ++ other.toList) :
    ∃ suffix ∈ "" :: ".opt" :: suffixes,
      first = second ++ suffix.toList ∨ second = first ++ suffix.toList := by
  have further {suffix : String} (listed : suffix ∈ suffixes) : suffix ∈ "" :: ".opt" :: suffixes := by
    simp [listed]
  have bare (text : Text) : text ++ "".toList = text := List.append_nil text
  rcases List.mem_cons.mp member with rfl | member <;>
    rcases List.mem_cons.mp memberToo with rfl | memberToo
  · exact ⟨"", List.mem_cons_self, .inl ((bare first).symm.trans same)⟩
  · exact ⟨other, further memberToo, .inl ((bare first).symm.trans same)⟩
  · exact ⟨suffix, further member, .inr ((bare second).symm.trans same.symm)⟩
  · rcases append_suffix member memberToo same with ⟨equal, _⟩ | ⟨longer, _⟩ | ⟨longer, _⟩
    · exact ⟨"", List.mem_cons_self, .inl (equal.trans (bare second).symm)⟩
    · exact ⟨".opt", by simp, .inl longer⟩
    · exact ⟨".opt", by simp, .inr longer⟩

end Artifacts

namespace Path

variable {path other : Path} {suffix : String}

/-- A suffix that an artifact has makes another path. -/
theorem components_ne_extend (path : Path) (member : suffix ∈ Artifacts.suffixes) :
    path.components ≠ (path.extend suffix).components := by
  intro same
  obtain ⟨apart, long⟩ := Artifacts.plain_of_mem_suffixes member
  obtain ⟨text, is, whole⟩ := path.cut_leaf
  rw [path.components_extend apart long] at same
  by_cases far : path.folder.text ≠ [] ∨ path.leaf ≠ ['.']
  · have own := is.components whole far
    rw [← text] at own
    have named : (component? path.leaf).toList = [.name (path.leaf ++ suffix.toList)] :=
      List.append_cancel_left (own.symm.trans same)
    unfold component? at named
    split at named
    · cases named
    · split at named
      · cases named
      · have longer := Component.name.inj (List.cons.inj named).1
        have sizes := congrArg List.length longer
        rw [List.length_append] at sizes
        omega
  · obtain ⟨none, dot⟩ := not_or.mp far
    rw [not_not] at none dot
    have here : path.components = [.here] := by
      rw [show path = ⟨['.']⟩ from congrArg Path.mk (by rw [text, none, dot]; rfl)]
      rfl
    rw [here, show path.folder = ⟨[]⟩ from congrArg Path.mk none] at same
    cases same

theorem extend_same_iff {own : String} (member : suffix ∈ Artifacts.suffixes)
    (memberToo : own ∈ Artifacts.suffixes) :
    (path.extend suffix).components = (other.extend own).components ↔
      path.folder.components = other.folder.components ∧
        path.leaf ++ suffix.toList = other.leaf ++ own.toList := by
  obtain ⟨apart, long⟩ := Artifacts.plain_of_mem_suffixes member
  obtain ⟨apartToo, longToo⟩ := Artifacts.plain_of_mem_suffixes memberToo
  rw [components_extend path apart long, components_extend other apartToo longToo]
  simp

/-- The path is that of an artifact of the other, or what follows its last slash is that of the other
with `.opt` behind it. -/
def Overlaps (path other : Path) : Prop :=
  (∃ suffix ∈ Artifacts.suffixes, path.same (other.extend suffix) = true) ∨
    path.folder.same other.folder = true ∧ path.leaf = other.leaf ++ ".opt".toList

end Path

namespace Artifacts

theorem pairwise_all (artifacts : Artifacts) :
    artifacts.all.Pairwise fun first second => first.components ≠ second.components := by
  have apart {first second : String} (member : first ∈ suffixes) (memberToo : second ∈ suffixes)
      (other : first ≠ second) : (artifacts.base.extend first).components ≠
        (artifacts.base.extend second).components := by
    rw [ne_eq, Path.extend_same_iff member memberToo]
    rintro ⟨_, same⟩
    exact other (String.toList_inj.mp (List.append_cancel_left same))
  have shape : artifacts.all = artifacts.base :: suffixes.map artifacts.base.extend := rfl
  rw [shape, List.pairwise_cons, List.pairwise_map]
  constructor
  · intro path member
    obtain ⟨suffix, listed, rfl⟩ := List.mem_map.mp member
    exact artifacts.base.components_ne_extend listed
  · have distinct : suffixes.Pairwise (· ≠ ·) := by decide
    exact distinct.imp_of_mem fun listed listedToo other => apart listed listedToo other

/-- Artifacts of different bases share a path exactly if one base is that of an artifact of the other, or
ends as the other with `.opt` behind it. -/
theorem shares_iff {one other : Artifacts} (differ : one.base.components ≠ other.base.components) :
    (∃ first ∈ one.all, ∃ second ∈ other.all, first.components = second.components) ↔
      one.base.Overlaps other.base ∨ other.base.Overlaps one.base := by
  have optimized {path base : Path} (folder : path.folder.same base.folder = true)
      (leaf : path.leaf = base.leaf ++ ".opt".toList) :
      (path.extend ".spv").components = (base.extend ".opt.spv").components := by
    refine (Path.extend_same_iff (by decide) (by decide)).mpr ⟨Path.same_iff.mp folder, ?_⟩
    rw [leaf, List.append_assoc]
    rfl
  constructor
  · rintro ⟨first, listed, second, listedToo, same⟩
    rcases mem_all.mp listed with rfl | ⟨suffix, member, rfl⟩ <;>
      rcases mem_all.mp listedToo with rfl | ⟨own, memberToo, rfl⟩
    · exact absurd same differ
    · exact .inl (.inl ⟨own, memberToo, Path.same_iff.mpr same⟩)
    · exact .inr (.inl ⟨suffix, member, Path.same_iff.mpr same.symm⟩)
    · obtain ⟨folder, texts⟩ := (Path.extend_same_iff member memberToo).mp same
      rcases append_suffix member memberToo texts with ⟨leaf, _⟩ | ⟨leaf, _⟩ | ⟨leaf, _⟩
      · exact absurd (Path.components_congr folder leaf) differ
      · exact .inl (.inr ⟨Path.same_iff.mpr folder, leaf⟩)
      · exact .inr (.inr ⟨Path.same_iff.mpr folder.symm, leaf⟩)
  · rintro ((⟨suffix, member, same⟩ | ⟨folder, leaf⟩) | (⟨suffix, member, same⟩ | ⟨folder, leaf⟩))
    · exact ⟨one.base, mem_all.mpr (.inl rfl), _, mem_all.mpr (.inr ⟨suffix, member, rfl⟩),
        Path.same_iff.mp same⟩
    · exact ⟨_, mem_all.mpr (.inr ⟨".spv", by decide, rfl⟩), _,
        mem_all.mpr (.inr ⟨".opt.spv", by decide, rfl⟩), optimized folder leaf⟩
    · exact ⟨_, mem_all.mpr (.inr ⟨suffix, member, rfl⟩), other.base, mem_all.mpr (.inl rfl),
        (Path.same_iff.mp same).symm⟩
    · exact ⟨_, mem_all.mpr (.inr ⟨".opt.spv", by decide, rfl⟩), _,
        mem_all.mpr (.inr ⟨".spv", by decide, rfl⟩), (optimized folder leaf).symm⟩

theorem leaf_of_mem {artifacts : Artifacts} {path : Path} (files : FileSystem)
    (member : path ∈ artifacts.all) : files.folder? path = files.folder? artifacts.base ∧
      ∃ suffix ∈ "" :: suffixes, path.leaf = artifacts.base.leaf ++ suffix.toList := by
  rcases mem_all.mp member with rfl | ⟨suffix, listed, rfl⟩
  · exact ⟨rfl, "", List.mem_cons_self, (List.append_nil _).symm⟩
  · obtain ⟨apart, _⟩ := plain_of_mem_suffixes listed
    exact ⟨files.folder?_extend _ apart, suffix, List.mem_cons_of_mem _ listed,
      (Path.folder_leaf_extend _ apart).2⟩

end Artifacts

/-- The last parts of two paths are looked up in one directory, and the first is the second, perhaps with
`.opt` or the suffix of an artifact behind it. -/
def FileSystem.Meets (files : FileSystem) (path other : Path) : Prop :=
  ∃ directory, files.folder? path = some directory ∧ files.folder? other = some directory ∧
    ∃ suffix ∈ "" :: ".opt" :: Artifacts.suffixes, path.leaf = other.leaf ++ suffix.toList

namespace Task

variable {one other : Task} {files : FileSystem} {location : Location}

/-- No artifact of the two commands is a link, and no base meets the other one. -/
structure Separate (one other : Task) (files : FileSystem) : Prop where
  bare : ∀ path ∈ one.artifacts.all ++ other.artifacts.all, ∀ there target,
    files.locate .node path ≠ .ok (.occupied there (.link target))
  apart : ¬files.Meets one.outputBase other.outputBase
  apartToo : ¬files.Meets other.outputBase one.outputBase

/-- No artifact of the one leads where an artifact of the other leads. -/
theorem Separate.outlet? (separate : one.Separate other files) {first second : Path}
    (member : first ∈ one.artifacts.all) (memberToo : second ∈ other.artifacts.all)
    (leads : files.outlet? first = some location) : files.outlet? second ≠ some location := by
  intro leadsToo
  obtain ⟨directory, found, own⟩ := FileSystem.folder?_of_outlet? leads
    (separate.bare first (List.mem_append_left _ member))
  obtain ⟨_, foundToo, ownToo⟩ := FileSystem.folder?_of_outlet? leadsToo
    (separate.bare second (List.mem_append_right _ memberToo))
  obtain ⟨rfl, leaves⟩ := List.append_inj' (own.symm.trans ownToo) rfl
  obtain ⟨folder, suffix, listed, leaf⟩ := Artifacts.leaf_of_mem files member
  obtain ⟨folderToo, suffixToo, listedToo, leafToo⟩ := Artifacts.leaf_of_mem files memberToo
  rw [folder] at found
  rw [folderToo] at foundToo
  have texts : one.outputBase.leaf ++ suffix.toList = other.outputBase.leaf ++ suffixToo.toList :=
    leaf.symm.trans ((List.cons.inj leaves).1.trans leafToo)
  obtain ⟨behind, known, same | same⟩ := Artifacts.exists_suffix listed listedToo texts
  · exact separate.apart ⟨directory, found, foundToo, behind, known, same⟩
  · exact separate.apartToo ⟨directory, foundToo, found, behind, known, same⟩

/-- The artifacts of one base have five different paths, and those of different bases share a path only if
one base is that of an artifact of the other or has `.opt` more at its end. Commands whose bases do not
meet, and whose artifacts are no links, share no file: no two artifacts lead to one place, and with tools
that write what they are asked for the work on the one leaves the files of the other, at each step and as
a whole. -/
theorem unshared :
    (∀ artifacts : Artifacts,
      artifacts.all.Pairwise fun first second => first.components ≠ second.components) ∧
    (∀ one other : Artifacts, one.base.components ≠ other.base.components →
      ((∃ first ∈ one.all, ∃ second ∈ other.all, first.components = second.components) ↔
        one.base.Overlaps other.base ∨ other.base.Overlaps one.base)) ∧
    ∀ (one other : Task), ∀ second ∈ other.artifacts.all, ∀ location,
      (∀ files : FileSystem, one.Separate other files → files.outlet? second = some location →
        ∀ first ∈ one.artifacts.all, files.outlet? first ≠ some location) ∧
      ∀ (tools : Tools) (state : BuildState), one.Modest tools →
        (∀ file, state.world.files.fileAt? location = some file → file.keepsLog = false) →
          (one.Separate other state.world.files →
            state.world.files.outlet? second = some location →
              ∀ phase, (one.step tools phase state).2.world.files.fileAt? location =
                state.world.files.fileAt? location) ∧
          (one.Separate other (one.process tools state).2.world.files →
            (one.process tools state).2.world.files.outlet? second = some location →
              (one.process tools state).2.world.files.fileAt? location =
                state.world.files.fileAt? location) := by
  refine ⟨Artifacts.pairwise_all, fun one other => Artifacts.shares_iff,
    fun one other second member location => ?_⟩
  have apart (files : FileSystem) (separate : one.Separate other files)
      (leads : files.outlet? second = some location) (first : Path)
      (memberToo : first ∈ one.artifacts.all) : files.outlet? first ≠ some location :=
    fun leadsToo => separate.outlet? memberToo member leadsToo leads
  refine ⟨apart, fun tools state modest plain => ⟨fun separate leads phase => ?_,
    fun separate leads => ?_⟩⟩
  · exact fileAt?_step_apart modest plain (apart _ separate leads)
  · exact fileAt?_complete modest plain (apart _ separate leads)

/-- Two commands, of which the second one has an output already. -/
def besideState : BuildState :=
  { freshState with
    world := ⟨(leftFiles 7).put ["p.spv".toList] (.file ⟨.binary [0], 5, false, false⟩),
      freshState.world.clock, 0⟩ }

/-- The command `410;mono;a.slv;p`. -/
def besideTask : Task :=
  { forcedTask with command := { forcedTask.command with outputBase := Path.of "p" } }

/-- The artifacts of one command are refreshed, and the output of the other is as it was. -/
theorem unshared_beside :
    (forcedTask.again false false []).Modest failingTools ∧
      ((forcedTask.again false false []).process failingTools besideState).1 = .ok .upToDate ∧
      ((forcedTask.again false false []).process failingTools besideState).2.world.files.file?
        besideTask.artifacts.compiled = some ⟨.binary [0], 5, false, false⟩ := by
  have known : besideState.cache.find? forcedTask.key = some leftSet := by cbv
  have current : (forcedTask.again false false []).isStale besideState.world.files leftSet =
      false := by cbv
  obtain ⟨count, done⟩ : ∃ count, (Freshness.refresh besideState.world.now besideState.world.files
      forcedTask.artifacts.all).1 = .ok count := ⟨5, by cbv⟩
  obtain ⟨ended, left⟩ := @process_of_fresh (forcedTask.again false false []) failingTools leftSet
    besideState count rfl known current done
  have files : ((forcedTask.again false false []).process failingTools besideState).2.world.files =
      (Freshness.refresh besideState.world.now besideState.world.files
        forcedTask.artifacts.all).2 := congrArg (·.world.files) left
  have separate : (forcedTask.again false false []).Separate besideTask
      (Freshness.refresh besideState.world.now besideState.world.files
        forcedTask.artifacts.all).2 := by
    have stands : ((forcedTask.artifacts.all ++ besideTask.artifacts.all).all fun path =>
        ((Freshness.refresh besideState.world.now besideState.world.files
          forcedTask.artifacts.all).2.spot? path).isSome) = true := by cbv
    refine ⟨fun path member => FileSystem.bare_of_spot? (List.all_eq_true.mp stands path member),
      ?_, ?_⟩
    all_goals
      rintro ⟨_, _, _, suffix, listed, same⟩
      revert suffix
      decide
  have leads : (Freshness.refresh besideState.world.now besideState.world.files
      forcedTask.artifacts.all).2.outlet? besideTask.artifacts.compiled = some ["p.spv".toList] := by
    cbv
  have old : besideState.world.files.fileAt? ["p.spv".toList] =
      some ⟨.binary [0], 5, false, false⟩ := by cbv
  have plain : ∀ file, besideState.world.files.fileAt? ["p.spv".toList] = some file →
      file.keepsLog = false := fun file there => by rw [← Option.some.inj (old.symm.trans there)]
  rw [← files] at separate leads
  have left := ((unshared.2.2 _ besideTask _ (output_mem .compile _) _).2 failingTools besideState
    (modest_failing _) plain).2 separate leads
  exact ⟨modest_failing _, ended, (FileSystem.file?_of_outlet? leads).trans (left.trans old)⟩

/-- Two directories, and a link in one of them. -/
def crossing : FileSystem where
  entries := [(["out".toList], .directory), (["x".toList], .directory),
    (["out".toList, "b.spv".toList], .link (Path.of "a.spv"))]
  workingLocation := []
  workingDirectory := Path.of "/"

/-- Bases that are different as paths share files: where the one is the other with `.opt` or the suffix of
an artifact behind it, an artifact of the one has the path of one of the other; where it comes to the place
of the other through `..`, or an artifact is a link, artifacts of different paths lead to one place. -/
theorem shared_crossing :
    (∀ suffix ∈ ".opt" :: Artifacts.suffixes,
      (Path.of "out/a").components ≠ ((Path.of "out/a").extend suffix).components ∧
        ∃ first ∈ (Artifacts.mk (Path.of "out/a")).all,
          ∃ second ∈ (Artifacts.mk ((Path.of "out/a").extend suffix)).all, first = second) ∧
    (∀ second ∈ (Artifacts.mk (Path.of "x/../out/a")).all,
      ∀ first ∈ (Artifacts.mk (Path.of "out/a")).all, first.components ≠ second.components) ∧
    (∃ location, crossing.outlet? (Artifacts.mk (Path.of "out/a")).compiled = some location ∧
      crossing.outlet? (Artifacts.mk (Path.of "x/../out/a")).compiled = some location) ∧
    (∀ second ∈ (Artifacts.mk (Path.of "out/b")).all,
      ∀ first ∈ (Artifacts.mk (Path.of "out/a")).all, first.components ≠ second.components) ∧
    ∃ location, crossing.outlet? (Artifacts.mk (Path.of "out/a")).compiled = some location ∧
      crossing.outlet? (Artifacts.mk (Path.of "out/b")).compiled = some location :=
  ⟨by decide, by decide, ⟨["out".toList, "a.spv".toList], by cbv, by cbv⟩, by decide,
    ["out".toList, "a.spv".toList], by cbv, by cbv⟩

end Task

end ShaderBuild
