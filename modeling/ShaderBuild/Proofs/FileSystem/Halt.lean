import ShaderBuild.Proofs.Freshness
/-!
Where the way of a path comes to a halt. The frame alone says where: at a site with neither a
directory nor a link, and then only the file at that site matters, or with an answer to which no
file matters.
-/
namespace ShaderBuild

/-- How a way comes to a halt. -/
inductive FileSystem.Halt where
  /-- At a location with neither a directory nor a link; nothing is left of a path that ends there. -/
  | site (location : Location) (ends : Bool)
  /-- Whatever the files are. -/
  | settled (answer : Except FileError Place)

/-- Where a way leads that comes to a halt among these files. -/
def FileSystem.Halt.place (files : FileSystem) : Halt → Except FileError Place
  | .settled answer => answer
  | .site location ends =>
    match files.fileAt? location with
    | none => if ends then .ok (.vacant location) else .error .notFound
    | some file => if ends then .ok (.occupied location (.file file)) else .error .notADirectory

/-- The place, whatever the time of the file there. -/
def Place.timeless : Place → Place
  | .occupied location (.file file) => .occupied location (.file (file.stamped 0))
  | place => place

/-- The file at a place, and its location. -/
def Place.file : Place → Except FileError (Location × File)
  | .vacant _ => .error .notFound
  | .occupied location (.file file) => .ok (location, file)
  | .occupied _ _ => .error .isADirectory

namespace FileSystem

/-- The halt of a walk from the directory at `here`. -/
def walkHalt (files : FileSystem) (aim : Aim) (links : Nat) (here : Location) : List Step → Halt
  | [] => .settled (.ok (.occupied here .directory))
  | .stay :: rest => walkHalt files aim links here rest
  | .slash :: rest => walkHalt files aim links here rest
  | .up :: rest => walkHalt files aim links here.dropLast rest
  | .enter name :: rest =>
    if aim = .creation ∧ rest = [.slash] then .settled (.error .isADirectory)
    else if Text.byteLength name > maximalName then .settled (.error .nameTooLong)
    else
      let there := here ++ [name]
      match files.frame? there with
      | some .directory => walkHalt files aim links there rest
      | some (.link target) =>
        if rest.isEmpty && aim == .node then .settled (.ok (.occupied there (.link target)))
        else
          match links with
          | 0 => .settled (.error .tooManyLinks)
          | links + 1 =>
            walkHalt files aim links (if target.isAbsolute then [] else here)
              (target.wholeSteps ++ rest)
      | _ => .site there rest.isEmpty
  termination_by steps => (links, steps.length)

/-- The halt of the way of a path. -/
def halt (files : FileSystem) (aim : Aim) (path : Path) : Halt :=
  if path.text.isEmpty then .settled (.error .notFound)
  else if path.text.contains '\x00' then .settled (.error .nulInPath)
  else if Text.byteLength path.text ≥ maximalPath then .settled (.error .nameTooLong)
  else
    files.walkHalt aim maximalLinks (if path.isAbsolute then [] else files.workingLocation)
      (if aim = .node then path.steps else path.wholeSteps)

/-- The way of the path may come to a halt at the location. -/
def Stops (files : FileSystem) (path : Path) (location : Location) : Prop :=
  ∃ aim ends, files.halt aim path = .site location ends

variable {files first second : FileSystem} {aim : Aim} {links : Nat} {here location : Location}
  {steps : List Step} {path : Path} {stop : Halt}

/-- A walk leads where its halt says. -/
theorem walk_eq_place (files : FileSystem) (aim : Aim) (links : Nat) (here : Location)
    (steps : List Step) :
    files.walk aim links here steps = (files.walkHalt aim links here steps).place files := by
  induction links, here, steps using walk_induction with
  | arrived links here =>
    rw [walk, walkHalt]
    rfl
  | stay links here rest ih => rwa [walk, walkHalt]
  | slash links here rest ih => rwa [walk, walkHalt]
  | up links here rest ih => rwa [walk, walkHalt]
  | enter links here name rest ih follow =>
    rw [walk, walkHalt]
    split
    · rfl
    split
    · rfl
    dsimp only
    cases there : files.node? (here ++ [name]) with
    | none => simp [frame?, Halt.place, fileAt?, there]
    | some node =>
      cases node with
      | file file => simp [frame?, Halt.place, fileAt?, there]
      | directory => simpa [frame?, there] using ih
      | link target =>
        simp only [frame?, there]
        split
        · rfl
        · cases links with
          | zero => rfl
          | succ links => exact follow links (Nat.lt_succ_self _) _ _

theorem locate_eq_place (files : FileSystem) (aim : Aim) (path : Path) :
    files.locate aim path = (files.halt aim path).place files := by
  unfold locate FileSystem.halt
  split
  · rfl
  split
  · rfl
  split
  · rfl
  · exact walk_eq_place files _ _ _ _

private theorem walkHalt_congr (same : first.Framed second) (aim : Aim) (links : Nat)
    (here : Location) (steps : List Step) :
    first.walkHalt aim links here steps = second.walkHalt aim links here steps := by
  induction links, here, steps using walk_induction with
  | arrived links here => rw [walkHalt, walkHalt]
  | stay links here rest ih => rwa [walkHalt, walkHalt]
  | slash links here rest ih => rwa [walkHalt, walkHalt]
  | up links here rest ih => rwa [walkHalt, walkHalt]
  | enter links here name rest ih follow =>
    rw [walkHalt, walkHalt]
    dsimp only
    rw [same.frame, ih]
    cases links with
    | zero => rfl
    | succ links => simp only [follow links (Nat.lt_succ_self _)]

/-- The halt is a matter of the frame. -/
theorem Framed.halt (same : first.Framed second) (aim : Aim) (path : Path) :
    first.halt aim path = second.halt aim path := by
  unfold FileSystem.halt
  rw [same.start, walkHalt_congr same]

private theorem outlet_walkHalt {answer : Except FileError Place}
    (settled : files.walkHalt aim links here steps = .settled answer) : outlet answer = none := by
  induction links, here, steps using walk_induction with
  | arrived links here =>
    rw [walkHalt] at settled
    obtain rfl := Halt.settled.inj settled
    rfl
  | stay links here rest ih =>
    rw [walkHalt] at settled
    exact ih settled
  | slash links here rest ih =>
    rw [walkHalt] at settled
    exact ih settled
  | up links here rest ih =>
    rw [walkHalt] at settled
    exact ih settled
  | enter links here name rest ih follow =>
    rw [walkHalt] at settled
    split at settled
    · obtain rfl := Halt.settled.inj settled
      rfl
    split at settled
    · obtain rfl := Halt.settled.inj settled
      rfl
    dsimp only at settled
    split at settled
    · exact ih settled
    · split at settled
      · obtain rfl := Halt.settled.inj settled
        rfl
      · cases links with
        | zero =>
          obtain rfl := Halt.settled.inj settled
          rfl
        | succ links => exact follow links (Nat.lt_succ_self _) _ _ settled
    · cases settled

/-- A path leads to a file, or to where one could be, when its way ends at a site. -/
theorem outlet_locate_eq_some :
    outlet (files.locate aim path) = some location ↔ files.halt aim path = .site location true := by
  rw [locate_eq_place]
  cases halts : files.halt aim path with
  | site there ends =>
    cases ends <;> cases found : files.fileAt? there <;>
      simp [Halt.place, found, Place.outlet?, Place.bare, outlet, seen, Except.toOption]
  | settled answer =>
    suffices outlet answer = none by simp [Halt.place, this]
    unfold FileSystem.halt at halts
    split at halts
    · obtain rfl := Halt.settled.inj halts
      rfl
    split at halts
    · obtain rfl := Halt.settled.inj halts
      rfl
    split at halts
    · obtain rfl := Halt.settled.inj halts
      rfl
    · exact outlet_walkHalt halts

theorem stops_of_outlet? (leads : files.outlet? path = some location) : files.Stops path location :=
  ⟨.target, true, outlet_locate_eq_some.mp leads⟩

theorem locate_eq_directory : files.locate aim path = .ok (.occupied location .directory) ↔
    files.halt aim path = .settled (.ok (.occupied location .directory)) := by
  rw [locate_eq_place]
  cases files.halt aim path with
  | settled answer => simp [Halt.place]
  | site there ends =>
    cases ends <;> cases found : files.fileAt? there <;> simp [Halt.place, found]

theorem place_congr
    (same : ∀ location ends, stop = .site location ends →
      first.fileAt? location = second.fileAt? location) :
    stop.place first = stop.place second := by
  cases stop with
  | settled answer => rfl
  | site location ends => rw [Halt.place, Halt.place, same location ends rfl]

theorem place_timeless
    (same : ∀ location ends, stop = .site location ends →
      (first.fileAt? location).map (File.stamped 0) =
        (second.fileAt? location).map (File.stamped 0)) :
    (stop.place first).map Place.timeless = (stop.place second).map Place.timeless := by
  cases stop with
  | settled answer => rfl
  | site location ends =>
    have files := same location ends rfl
    rw [Halt.place, Halt.place]
    cases one : first.fileAt? location <;> cases two : second.fileAt? location <;>
      simp only [one, two, Option.map_none, Option.map_some, reduceCtorEq, Option.some.injEq]
        at files
    · rfl
    · cases ends
      · rfl
      · exact congrArg (fun file => Except.ok (Place.occupied location (.file file))) files

/-- Paths lead to the same through the same frame, if the files at which they stop are the same. -/
theorem Framed.locate (framed : first.Framed second)
    (same : ∀ location, second.Stops path location →
      first.fileAt? location = second.fileAt? location) (aim : Aim) :
    first.locate aim path = second.locate aim path := by
  rw [locate_eq_place, locate_eq_place, framed.halt]
  exact place_congr fun location ends halts => same location ⟨aim, ends, halts⟩

variable {now later : Instant}

theorem locateFile_congr (same : first.locate .target path = second.locate .target path) :
    first.locateFile path = second.locateFile path := by
  rw [locateFile, locateFile, same]

theorem file?_congr (same : first.locateFile path = second.locateFile path) :
    first.file? path = second.file? path := by
  rw [← toOption_locateFile, ← toOption_locateFile, same]

theorem locateFile_timeless
    (same : (first.locate .target path).map Place.timeless =
      (second.locate .target path).map Place.timeless) :
    (first.locateFile path).map (Prod.map id (File.stamped 0)) =
      (second.locateFile path).map (Prod.map id (File.stamped 0)) := by
  have found (files : FileSystem) :
      (files.locateFile path).map (Prod.map id (File.stamped 0)) =
        ((files.locate .target path).map Place.timeless).bind Place.file := by
    unfold locateFile
    cases files.locate .target path with
    | error problem => rfl
    | ok place =>
      cases place with
      | vacant location => rfl
      | occupied location node => cases node <;> rfl
  rw [found, found, same]

/-- To start a program its time does not matter. -/
theorem checkExecutable_congr
    (same : (first.locate .target path).map Place.timeless =
      (second.locate .target path).map Place.timeless) :
    first.checkExecutable path = second.checkExecutable path := by
  have times := locateFile_timeless same
  unfold checkExecutable
  revert times
  cases first.locateFile path with
  | error problem =>
    cases second.locateFile path with
    | error other =>
      intro times
      obtain rfl := Except.error.inj times
      rfl
    | ok other =>
      intro times
      cases times
  | ok found =>
    cases second.locateFile path with
    | error problem =>
      intro times
      cases times
    | ok other =>
      intro times
      have executable : found.2.executable = other.2.executable :=
        congrArg (·.2.executable) (Except.ok.inj times)
      have keepsLog : found.2.keepsLog = other.2.keepsLog :=
        congrArg (·.2.keepsLog) (Except.ok.inj times)
      dsimp only
      rw [executable, keepsLog]

theorem file?_of_timeless
    (same : (first.locate .target path).map Place.timeless =
      (second.locate .target path).map Place.timeless) :
    (first.file? path).map (File.stamped 0) = (second.file? path).map (File.stamped 0) := by
  have found (files : FileSystem) : (files.file? path).map (File.stamped 0) =
      ((files.locateFile path).map (Prod.map id (File.stamped 0))).toOption.map Prod.snd := by
    rw [← toOption_locateFile]
    cases files.locateFile path <;> rfl
  rw [found, found, locateFile_timeless same]

theorem write_eq_error {contents : Contents} {problem : FileError}
    (same : first.locate .creation path = second.locate .creation path)
    (failed : first.write path now contents = .error problem) :
    second.write path later contents = .error problem := by
  unfold write openFile at failed ⊢
  rw [same] at failed
  cases found : second.locate .creation path with
  | error other => simpa [found] using failed
  | ok place =>
    cases place with
    | vacant location => simp [found] at failed
    | occupied location node =>
      cases node <;> simp_all

theorem file?_timeless (framed : first.Framed second)
    (same : ∀ location, first.outlet? path = some location →
      (first.fileAt? location).map (File.stamped 0) =
        (second.fileAt? location).map (File.stamped 0)) :
    (first.file? path).map (File.stamped 0) = (second.file? path).map (File.stamped 0) := by
  rw [file?, file?, ← framed.outlet?]
  cases leads : first.outlet? path with
  | none => rfl
  | some location => exact same location leads

theorem Retimed.timeless (retimed : Retimed now first second) (location : Location) :
    (second.fileAt? location).map (File.stamped 0) =
      (first.fileAt? location).map (File.stamped 0) := by
  rcases retimed.file location with same | changed
  · rw [same]
  · rw [changed, Option.map_map]
    rfl

end FileSystem

end ShaderBuild
