import ShaderBuild.FileSystem.World
import ShaderBuild.Proofs.FileSystem.Walk
/-!
Files by path: the location that a path leads to, the file that it has, and what each operation on
files does in these terms.
-/
namespace ShaderBuild

/-- The text of the path is one that the file system takes for a path. -/
structure Path.Accepted (path : Path) : Prop where
  nonempty : path.text ≠ []
  noNul : '\x00' ∉ path.text
  short : Text.byteLength path.text < FileSystem.maximalPath

namespace FileSystem

variable {files first second changed : FileSystem} {location : Location} {path other : Path}
  {file : File} {now : Instant}

/-- Where the file at a path is or could be made. -/
def outlet? (files : FileSystem) (path : Path) : Option Location :=
  outlet (files.locate .target path)

/-- The file that a path leads to. -/
def file? (files : FileSystem) (path : Path) : Option File :=
  (files.outlet? path).bind files.fileAt?

theorem locate_cases (path : Path) :
    (∃ problem, ∀ (files : FileSystem) (aim : Aim), files.locate aim path = .error problem) ∨
      path.Accepted ∧ ∀ (files : FileSystem) (aim : Aim), files.locate aim path =
        files.walk aim maximalLinks (if path.isAbsolute then [] else files.workingLocation)
          (if aim = .node then path.steps else path.wholeSteps) := by
  unfold locate
  by_cases empty : path.text.isEmpty
  · exact .inl ⟨_, fun _ _ => if_pos empty⟩
  by_cases nul : path.text.contains '\x00'
  · exact .inl ⟨.nulInPath, fun _ _ => by rw [if_neg empty, if_pos nul]⟩
  by_cases long : Text.byteLength path.text ≥ maximalPath
  · exact .inl ⟨.nameTooLong, fun _ _ => by rw [if_neg empty, if_neg nul, if_pos long]⟩
  · refine .inr ⟨⟨by simpa using empty, by simpa using nul, Nat.lt_of_not_le long⟩, fun _ _ => ?_⟩
    rw [if_neg empty, if_neg nul, if_neg long]

private theorem locate_accepted (accepted : path.Accepted) (files : FileSystem) (aim : Aim) :
    files.locate aim path =
      files.walk aim maximalLinks (if path.isAbsolute then [] else files.workingLocation)
        (if aim = .node then path.steps else path.wholeSteps) := by
  unfold locate
  rw [if_neg (by simpa using accepted.nonempty), if_neg (by simpa using accepted.noNul),
    if_neg (Nat.not_le.mpr accepted.short)]

/-- Where a path leads to a file, it is walked, and has no slash at its end. -/
theorem outlet?_eq_some :
    files.outlet? path = some location ↔
      path.Accepted ∧ path.endsInSlash = false ∧
        outlet (files.walk .target maximalLinks
          (if path.isAbsolute then [] else files.workingLocation) path.steps) = some location := by
  constructor
  · intro leads
    rcases locate_cases path with ⟨problem, refused⟩ | ⟨accepted, walks⟩
    · rw [outlet?, refused] at leads
      simp [outlet, seen, Except.toOption] at leads
    · rw [outlet?, walks, if_neg (c := Aim.target = .node) (by simp), Path.wholeSteps] at leads
      cases slash : path.endsInSlash with
      | true =>
        rw [slash, if_pos rfl, outlet_walk_slash] at leads
        simp at leads
      | false =>
        rw [slash, if_neg Bool.false_ne_true] at leads
        exact ⟨accepted, rfl, leads⟩
  · rintro ⟨accepted, plain, leads⟩
    rw [outlet?, locate_accepted accepted, if_neg (c := Aim.target = .node) (by simp),
      Path.wholeSteps, plain, if_neg Bool.false_ne_true]
    exact leads

theorem seen_locate_congr (same : first.Framed second) (aim : Aim) (path : Path) :
    seen (first.locate aim path) = seen (second.locate aim path) := by
  rcases locate_cases path with ⟨problem, refused⟩ | ⟨_, walks⟩
  · rw [refused, refused]
  · rw [walks, walks, same.start]
    exact seen_walk_congr same _ _ _ _

theorem outlet_locate_congr (same : first.Framed second) (aim : Aim) (path : Path) :
    outlet (first.locate aim path) = outlet (second.locate aim path) :=
  congrArg (·.bind Place.outlet?) (seen_locate_congr same aim path)

theorem Framed.outlet? (same : first.Framed second) (path : Path) :
    first.outlet? path = second.outlet? path :=
  outlet_locate_congr same .target path

theorem outlet_creation (files : FileSystem) (path : Path) :
    outlet (files.locate .creation path) = files.outlet? path := by
  rw [outlet?]
  rcases locate_cases path with ⟨problem, refused⟩ | ⟨_, walks⟩
  · rw [refused, refused]
  · rw [walks, walks]
    exact outlet_walk_creation _ _ _ _

theorem seen_node (files : FileSystem) (plain : path.endsInSlash = false) :
    seen (files.locate .target path) = seen (files.locate .node path) ∨
      ∃ location target, seen (files.locate .node path) =
        some (.occupied location (.link target)) := by
  rcases locate_cases path with ⟨problem, refused⟩ | ⟨_, walks⟩
  · rw [refused, refused]
    exact .inl rfl
  · have whole : path.wholeSteps = path.steps := by simp [Path.wholeSteps, plain]
    rw [walks, walks, if_neg (c := Aim.target = .node) (by simp), if_pos rfl, whole]
    exact seen_walk_node files _ _ _

theorem outlet?_of_node (plain : path.endsInSlash = false)
    (leads : outlet (files.locate .node path) = some location) :
    files.outlet? path = some location := by
  rcases seen_node files plain with same | ⟨there, target, link⟩
  · rw [outlet?, outlet, same]
    exact leads
  · rw [outlet, link] at leads
    simp [Place.outlet?, Place.bare] at leads

theorem node?_of_locate {aim : Aim} {place : Place} (found : files.locate aim path = .ok place)
    (leaf : place.node? ≠ some .directory) : files.node? place.location = place.node? := by
  rcases locate_cases path with ⟨problem, refused⟩ | ⟨_, walks⟩
  · simp [refused] at found
  · rw [walks] at found
    exact node?_of_walk found leaf

theorem at_of_locate {aim : Aim} {place : Place} (found : files.locate aim path = .ok place)
    (leads : place.outlet? = some location) :
    files.frame? location = none ∧
      (place = .vacant location ∧ files.fileAt? location = none ∨
        ∃ file, place = .occupied location (.file file) ∧ files.fileAt? location = some file) := by
  rcases Place.outlet?_eq_some.mp leads with rfl | ⟨file, rfl⟩
  · have absent := node?_of_locate found (by simp [Place.node?])
    simp only [Place.location, Place.node?] at absent
    exact ⟨by rw [frame?, absent], .inl ⟨rfl, by rw [fileAt?, absent]⟩⟩
  · have present := node?_of_locate found (by simp [Place.node?])
    simp only [Place.location, Place.node?] at present
    exact ⟨by rw [frame?, present], .inr ⟨file, rfl, by rw [fileAt?, present]⟩⟩

/-- Neither a directory nor a link is where a path leads. -/
theorem free_of_outlet? (leads : files.outlet? path = some location) :
    files.frame? location = none := by
  obtain ⟨place, found, leads⟩ := outlet_eq_some.mp leads
  exact (at_of_locate found leads).1

theorem file?_eq_some :
    files.file? path = some file ↔
      ∃ location, files.outlet? path = some location ∧ files.fileAt? location = some file :=
  Option.bind_eq_some_iff

theorem file?_of_outlet? (leads : files.outlet? path = some location) :
    files.file? path = files.fileAt? location := by
  rw [file?, leads, Option.bind_some]

theorem locateFile_eq_ok :
    files.locateFile path = .ok (location, file) ↔
      files.outlet? path = some location ∧ files.fileAt? location = some file := by
  unfold locateFile
  constructor
  · intro same
    split at same
    · simp at same
    · simp at same
    · rename_i place own found
      obtain ⟨rfl, rfl⟩ := Prod.mk.inj (Except.ok.inj same)
      have leads : (Place.occupied place (.file own)).outlet? = some place := rfl
      refine ⟨outlet_eq_some.mpr ⟨_, found, leads⟩, ?_⟩
      simpa using (at_of_locate found leads).2
    · simp at same
  · rintro ⟨leads, there⟩
    obtain ⟨place, found, leads⟩ := outlet_eq_some.mp leads
    rcases (at_of_locate found leads).2 with ⟨rfl, absent⟩ | ⟨own, rfl, present⟩
    · simp [absent] at there
    · rw [found, Option.some.inj (there.symm.trans present)]

theorem toOption_locateFile (files : FileSystem) (path : Path) :
    (files.locateFile path).toOption.map Prod.snd = files.file? path := by
  cases found : files.locateFile path with
  | ok there =>
    obtain ⟨leads, own⟩ := locateFile_eq_ok.mp found
    rw [file?_of_outlet? leads, own]
    rfl
  | error problem =>
    cases absent : files.file? path with
    | none => rfl
    | some file =>
      obtain ⟨location, leads, own⟩ := file?_eq_some.mp absent
      rw [locateFile_eq_ok.mpr ⟨leads, own⟩] at found
      simp at found

theorem isFile_eq (files : FileSystem) (path : Path) :
    files.isFile path = (files.file? path).isSome := by
  rw [isFile, ← toOption_locateFile]
  cases files.locateFile path <;> rfl

theorem modified?_eq (files : FileSystem) (path : Path) :
    files.modified? path = (files.file? path).map File.modified := by
  rw [modified?, ← toOption_locateFile]
  cases files.locateFile path <;> rfl

theorem readText_eq_ok {text : Text} :
    files.readText path = .ok text ↔
      ∃ file, files.file? path = some file ∧ file.contents = .text text := by
  rw [readText, ← toOption_locateFile]
  cases files.locateFile path with
  | error problem => simp [Except.toOption]
  | ok found =>
    obtain ⟨location, file⟩ := found
    cases held : file.contents <;> simp [held, Except.toOption]

/-- The file to be changed at a path: that which is there, or an empty one. -/
theorem openFile_eq_ok :
    files.openFile path now = .ok (location, file) ↔
      files.outlet? path = some location ∧
        (files.fileAt? location).getD ⟨.text [], now, false, false⟩ = file := by
  rw [← outlet_creation]
  unfold openFile
  constructor
  · intro same
    split at same
    · simp at same
    · rename_i place found
      obtain ⟨rfl, rfl⟩ := Prod.mk.inj (Except.ok.inj same)
      have leads : (Place.vacant place).outlet? = some place := rfl
      refine ⟨outlet_eq_some.mpr ⟨_, found, leads⟩, ?_⟩
      rw [show files.fileAt? place = none by simpa using (at_of_locate found leads).2]
      rfl
    · rename_i place own found
      obtain ⟨rfl, rfl⟩ := Prod.mk.inj (Except.ok.inj same)
      have leads : (Place.occupied place (.file own)).outlet? = some place := rfl
      refine ⟨outlet_eq_some.mpr ⟨_, found, leads⟩, ?_⟩
      rw [show files.fileAt? place = some own by simpa using (at_of_locate found leads).2]
      rfl
    · simp at same
  · rintro ⟨leads, same⟩
    obtain ⟨place, found, leads⟩ := outlet_eq_some.mp leads
    rcases (at_of_locate found leads).2 with ⟨rfl, absent⟩ | ⟨own, rfl, present⟩
    · rw [absent] at same
      rw [found, ← same]
      rfl
    · rw [present] at same
      rw [found, ← same]
      rfl

theorem write_eq_ok {contents : Contents} :
    files.write path now contents = .ok changed ↔
      ∃ location, files.outlet? path = some location ∧
        changed = files.put location (.file
          { (files.fileAt? location).getD ⟨.text [], now, false, false⟩ with
            contents := contents, modified := now }) := by
  unfold write
  constructor
  · intro done
    split at done
    · simp at done
    · rename_i location file opened
      obtain ⟨leads, own⟩ := openFile_eq_ok.mp opened
      refine ⟨location, leads, ?_⟩
      rw [← Except.ok.inj done, own]
  · rintro ⟨location, leads, rfl⟩
    rw [openFile_eq_ok.mpr ⟨leads, rfl⟩]

theorem setModified_eq_ok :
    files.setModified path now = .ok changed ↔
      ∃ location file, files.outlet? path = some location ∧ files.fileAt? location = some file ∧
        changed = files.put location (.file { file with modified := now }) := by
  unfold setModified
  constructor
  · intro done
    split at done
    · simp at done
    · rename_i location file found
      obtain ⟨leads, there⟩ := locateFile_eq_ok.mp found
      exact ⟨location, file, leads, there, (Except.ok.inj done).symm⟩
  · rintro ⟨location, file, leads, there, rfl⟩
    rw [locateFile_eq_ok.mpr ⟨leads, there⟩]

/-- A path leads to the file that is put where it leads, and any other path where it led before. -/
theorem file?_put (free : files.frame? location = none) (file : File) (path : Path) :
    (files.put location (.file file)).file? path =
      if files.outlet? path = some location then some file else files.file? path := by
  rw [file?, ← (Framed.put free file).outlet?, file?]
  cases leads : files.outlet? path with
  | none => simp
  | some there => simp [fileAt?_put free]

/-- The files stay as they are, or one is put where the path leads. -/
def Writes (path : Path) (first second : FileSystem) : Prop :=
  second = first ∨ ∃ location file, first.outlet? path = some location ∧
    second = first.put location (.file file)

theorem writes_of_write {contents : Contents}
    (done : files.write path now contents = .ok changed) : Writes path files changed := by
  obtain ⟨location, leads, rfl⟩ := write_eq_ok.mp done
  exact .inr ⟨location, _, leads, rfl⟩

namespace Writes

variable {first second : FileSystem}

theorem framed (writes : Writes path first second) : first.Framed second := by
  rcases writes with rfl | ⟨location, file, leads, rfl⟩
  · exact .refl _
  · exact .put (free_of_outlet? leads) file

/-- Elsewhere the files are the same. -/
theorem fileAt? (writes : Writes path first second)
    (apart : first.outlet? path ≠ some location) :
    second.fileAt? location = first.fileAt? location := by
  rcases writes with rfl | ⟨there, file, leads, rfl⟩
  · rfl
  · have other : location ≠ there := by
      rintro rfl
      exact apart leads
    rw [fileAt?_put (free_of_outlet? leads), if_neg other]

/-- A path that leads elsewhere leads to the same file. -/
theorem file? {other : Path} (writes : Writes path first second)
    (apart : ∀ location, first.outlet? path = some location → first.outlet? other ≠ some location) :
    second.file? other = first.file? other := by
  rcases writes with rfl | ⟨location, file, leads, rfl⟩
  · rfl
  · rw [file?_put (free_of_outlet? leads), if_neg (apart location leads)]

end Writes

end FileSystem

end ShaderBuild
