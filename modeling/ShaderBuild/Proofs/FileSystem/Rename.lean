import ShaderBuild.Proofs.FileSystem.Outlet
/-!
A file that is written beside another and then takes its place.
-/
namespace ShaderBuild.FileSystem

variable {files changed : FileSystem} {path : Path} {location : Location} {file : File}
  {now : Instant} {contents : Contents}

/-- No link is in the way of a file that is written at `beside` and then moved to `path`: there is
none at `beside`, and one at `path` is not passed on the way to itself. -/
structure Direct (files : FileSystem) (beside path : Path) : Prop where
  beside : ∀ location target, files.locate .node beside ≠ .ok (.occupied location (.link target))
  own : ∀ location target, files.locate .node path = .ok (.occupied location (.link target)) →
    (files.erase location).locate .node path = .ok (.vacant location)

private theorem seen_eq_link {found : Except FileError Place} {target : Path} :
    seen found = some (.occupied location (.link target)) ↔
      found = .ok (.occupied location (.link target)) := by
  cases found with
  | error problem => simp [seen, Except.toOption]
  | ok place =>
    cases place with
    | vacant other => simp [seen, Except.toOption, Place.bare]
    | occupied other node => cases node <;> simp [seen, Except.toOption, Place.bare]

/-- The path ends in a name, so it can be given to a file. -/
structure Named (path : Path) : Prop where
  dots : endsInDots path = false
  slash : path.endsInSlash = false

theorem renameSource_eq_ok {node : Node} :
    files.renameSource path = .ok (location, node) ↔
      Named path ∧ files.locate .node path = .ok (.occupied location node) := by
  unfold renameSource
  constructor
  · intro found
    split at found
    · simp at found
    · simp at found
    · rename_i there own same
      split at found
      · simp at found
      · split at found
        · simp at found
        · rename_i dots plain
          obtain ⟨rfl, rfl⟩ := Prod.mk.inj (Except.ok.inj found)
          exact ⟨⟨by simpa using dots, by simpa using plain⟩, same⟩
  · rintro ⟨named, found⟩
    simp [found, named.dots, named.slash]

theorem renameTarget_eq_ok :
    files.renameTarget path = .ok location ↔
      Named path ∧ ∃ place, files.locate .node path = .ok place ∧
        place.location = location ∧ place.node? ≠ some .directory := by
  unfold renameTarget
  constructor
  · intro found
    split at found
    · simp at found
    · rename_i place same
      split at found
      · simp at found
      · split at found
        · simp at found
        · rename_i dots plain
          refine ⟨⟨by simpa using dots, by simpa using plain⟩, place, same, ?_⟩
          split at found
          · obtain rfl := Except.ok.inj found
            exact ⟨rfl, by simp [Place.node?]⟩
          · simp at found
          · rename_i other
            obtain rfl := Except.ok.inj found
            exact ⟨rfl, by simpa [Place.node?] using other⟩
  · rintro ⟨named, place, found, rfl, leaf⟩
    rw [found]
    dsimp only
    rw [named.dots, named.slash]
    cases place with
    | vacant location => rfl
    | occupied location node =>
      cases node with
      | directory => exact absurd rfl leaf
      | _ => rfl

theorem rename_eq_ok {source : Path} {moved : FileSystem} :
    files.rename source path = .ok moved ↔
      ∃ old node new, files.renameSource source = .ok (old, node) ∧
        files.renameTarget path = .ok new ∧
        moved = if new == old then files else (files.erase old).put new node := by
  unfold rename
  cases files.renameSource source with
  | error problem => simp
  | ok found =>
    cases files.renameTarget path with
    | error problem => simp
    | ok new =>
      obtain ⟨old, node⟩ := found
      dsimp only
      rw [← apply_ite Except.ok, Except.ok.injEq]
      constructor
      · rintro rfl
        exact ⟨old, node, new, rfl, rfl, rfl⟩
      · rintro ⟨_, _, _, source, target, rfl⟩
        obtain ⟨rfl, rfl⟩ := Prod.mk.inj (Except.ok.inj source)
        obtain rfl := Except.ok.inj target
        rfl

/-- A link at a path is a matter of the frame. -/
theorem Framed.link {first second : FileSystem} (same : first.Framed second) {target : Path} :
    first.locate .node path = .ok (.occupied location (.link target)) ↔
      second.locate .node path = .ok (.occupied location (.link target)) := by
  rw [← seen_eq_link, ← seen_eq_link, seen_locate_congr same]

/-- Through the same frame a path that leads to a place leads to one with the same location. -/
theorem Framed.place {first second : FileSystem} (same : first.Framed second) {aim : Aim}
    {place : Place} (found : second.locate aim path = .ok place) :
    ∃ other, first.locate aim path = .ok other ∧ other.location = place.location := by
  have seen := seen_locate_congr same aim path
  rw [found] at seen
  obtain ⟨other, foundToo, bare⟩ := Option.map_eq_some_iff.mp seen
  refine ⟨other, ?_, ?_⟩
  · cases answer : first.locate aim path with
    | error problem => simp [answer, Except.toOption] at foundToo
    | ok place => simpa [answer, Except.toOption] using foundToo
  · rw [← other.location_bare, bare, place.location_bare]

/-- The location at the path itself, if a file is there or could be and no link is. -/
def spot? (files : FileSystem) (path : Path) : Option Location :=
  outlet (files.locate .node path)

theorem Framed.spot? {first second : FileSystem} (same : first.Framed second) (path : Path) :
    first.spot? path = second.spot? path :=
  outlet_locate_congr same .node path

theorem outlet?_of_spot? (named : Named path) (stands : files.spot? path = some location) :
    files.outlet? path = some location :=
  outlet?_of_node named.slash stands

theorem spot?_of_outlet? (plain : path.endsInSlash = false)
    (bare : ∀ location target, files.locate .node path ≠ .ok (.occupied location (.link target)))
    (leads : files.outlet? path = some location) : files.spot? path = some location := by
  rcases seen_node files plain with same | ⟨there, target, link⟩
  · rw [spot?, outlet, ← same]
    exact leads
  · exact absurd (seen_eq_link.mp link) (bare there target)

theorem bare_of_spot? (stands : (files.spot? path).isSome) (location : Location) (target : Path) :
    files.locate .node path ≠ .ok (.occupied location (.link target)) := by
  intro link
  obtain ⟨own, leads⟩ := Option.isSome_iff_exists.mp stands
  obtain ⟨place, found, bare⟩ := outlet_eq_some.mp leads
  obtain rfl := Except.ok.inj (link.symm.trans found)
  cases bare

theorem spot?_of_locate {place : Place} (found : files.locate .node path = .ok place)
    (bare : ∀ location target, files.locate .node path ≠ .ok (.occupied location (.link target)))
    (leaf : place.node? ≠ some .directory) : files.spot? path = some place.location := by
  rw [spot?, found]
  cases place with
  | vacant location => rfl
  | occupied location node =>
    cases node with
    | file file => rfl
    | directory => exact absurd rfl leaf
    | link target => exact absurd found (bare location target)

theorem rename_of_spots {source : Path} {old new : Location} (named : Named source)
    (stands : files.spot? source = some old) (there : files.fileAt? old = some file)
    (namedToo : Named path) (standsToo : files.spot? path = some new) :
    files.rename source path =
      .ok (if new = old then files else (files.erase old).put new (.file file)) := by
  obtain ⟨place, found, leads⟩ := outlet_eq_some.mp stands
  obtain ⟨other, foundToo, leadsToo⟩ := outlet_eq_some.mp standsToo
  obtain ⟨own, rfl, same⟩ : ∃ own, place = .occupied old (.file own) ∧
      files.fileAt? old = some own := by
    rcases (at_of_locate found leads).2 with ⟨_, absent⟩ | present
    · simp [there] at absent
    · exact present
  obtain rfl := Option.some.inj (there.symm.trans same)
  have leaf : other.node? ≠ some .directory := by
    rcases Place.outlet?_eq_some.mp leadsToo with rfl | ⟨file, rfl⟩ <;> simp [Place.node?]
  have target := renameTarget_eq_ok.mpr
    ⟨namedToo, other, foundToo, Place.location_of_outlet? leadsToo, leaf⟩
  refine rename_eq_ok.mpr ⟨old, _, new, renameSource_eq_ok.mpr ⟨named, found⟩, target, ?_⟩
  simp

theorem node?_write (done : files.write path now contents = .ok changed) (location : Location) :
    changed.node? location = files.node? location ∨ files.outlet? path = some location ∧
      files.frame? location = none ∧ ∃ file, changed.node? location = some (.file file) := by
  obtain ⟨place, leads, rfl⟩ := write_eq_ok.mp done
  by_cases own : location = place
  · subst own
    have free := free_of_outlet? leads
    exact .inr ⟨leads, free, _, by rw [node?_put files (ne_nil_of_frame?_none free), if_pos rfl]⟩
  · exact .inl (node?_put_of_ne files _ own)

theorem not_directory_of_outlet? {place : Place} (plain : path.endsInSlash = false)
    (leads : files.outlet? path = some location) (found : files.locate .node path = .ok place) :
    place.node? ≠ some .directory := by
  intro directory
  obtain ⟨there, rfl⟩ : ∃ there, place = .occupied there .directory := by
    cases place with
    | vacant other => cases directory
    | occupied other node => exact ⟨other, by rw [Option.some.inj directory]⟩
  rcases seen_node files plain with same | ⟨other, target, link⟩
  · rw [outlet?, outlet, same, found] at leads
    cases leads
  · rw [seen_eq_link.mp link] at found
    cases found

private theorem location_ne_nil {place : Place} (found : files.locate .node path = .ok place)
    (leaf : place.node? ≠ some .directory) : place.location ≠ [] := by
  intro top
  have stands := node?_of_locate found leaf
  rw [top, node?_nil] at stands
  exact leaf stands.symm

/-- A file or link is moved from what stands at one path to what stands at another; nothing else is
touched. -/
theorem node?_rename {beside : Path} {moved : FileSystem} {place : Location}
    (leads : files.outlet? beside = some place)
    (done : files.rename beside path = .ok moved) (location : Location) :
    moved.node? location = files.node? location ∨
      (∃ other ∈ [beside, path], ∃ place, files.locate .node other = .ok place ∧
        place.location = location) ∧
      files.node? location ≠ some .directory ∧ moved.node? location ≠ some .directory := by
  obtain ⟨old, node, new, source, target, rfl⟩ := rename_eq_ok.mp done
  obtain ⟨named, found⟩ := renameSource_eq_ok.mp source
  obtain ⟨_, reached, foundToo, rfl, leaf⟩ := renameTarget_eq_ok.mp target
  have own := not_directory_of_outlet? named.slash leads found
  have stands := node?_of_locate found own
  have standsToo := node?_of_locate foundToo leaf
  simp only [Place.location, Place.node?] at stands own
  have below := location_ne_nil foundToo leaf
  have belowToo : old ≠ [] := location_ne_nil found own
  split
  · exact .inl rfl
  by_cases last : location = reached.location
  · subst last
    refine .inr ⟨⟨path, by simp, reached, foundToo, rfl⟩, standsToo ▸ leaf, ?_⟩
    rwa [node?_put _ below, if_pos rfl]
  · rw [node?_put_of_ne _ _ last]
    by_cases first : location = old
    · subst first
      refine .inr ⟨⟨beside, by simp, _, found, rfl⟩, stands ▸ own, ?_⟩
      rw [node?_erase _ belowToo, if_pos rfl]
      simp
    · exact .inl (node?_erase_of_ne files first)

private theorem found_beside {beside : Path} (free : files.frame? location = none)
    (leads : files.outlet? beside = some location) (plain : beside.endsInSlash = false)
    (bare : ∀ location target, files.locate .node beside ≠ .ok (.occupied location (.link target)))
    {old : Location} {node : Node}
    (found : (files.put location (.file file)).locate .node beside = .ok (.occupied old node)) :
    old = location ∧ node = .file file := by
  have same := spot?_of_outlet? plain bare leads
  rw [(Framed.put free file).spot?, spot?, found, outlet_ok] at same
  have there := at_of_locate found same
  rw [fileAt?_put free, if_pos rfl] at there
  rcases there.2 with ⟨_, absent⟩ | ⟨own, equal, present⟩
  · simp at absent
  · obtain ⟨rfl, rfl⟩ : old = location ∧ node = .file own := by simpa using equal
    exact ⟨rfl, by rw [Option.some.inj present]⟩

private theorem outlet_erase {place : Place}
    (own : ∀ location target, files.locate .node path = .ok (.occupied location (.link target)) →
      (files.erase location).locate .node path = .ok (.vacant location))
    (framed : files.Framed changed) (reached : changed.locate .node path = .ok place)
    (leaf : place.node? ≠ some .directory) :
    outlet ((files.erase place.location).locate .node path) = some place.location := by
  have same := seen_locate_congr framed .node path
  rw [reached] at same
  by_cases leads : place.outlet? = some place.location
  · have opens : outlet (files.locate .node path) = some place.location := by
      rw [outlet_locate_congr framed, reached, outlet_ok, leads]
    obtain ⟨_, first, there⟩ := outlet_eq_some.mp opens
    rw [← outlet_locate_congr (Framed.erase (at_of_locate first there).1)]
    exact opens
  · obtain ⟨location, target, rfl⟩ : ∃ location target, place = .occupied location (.link target) := by
      cases place with
      | vacant location => exact absurd rfl leads
      | occupied location node =>
        cases node with
        | file file => exact absurd rfl leads
        | directory => exact absurd rfl leaf
        | link target => exact ⟨location, target, rfl⟩
    change outlet ((files.erase location).locate .node path) = some location
    rw [own location target (seen_eq_link.mp same)]
    rfl

private theorem stands_written {place : Place} (free : files.frame? place.location = none)
    (namedToo : Named path)
    (reached : (files.put place.location (.file file)).locate .node path = .ok place)
    (leaf : place.node? ≠ some .directory) :
    (files.put place.location (.file file)).outlet? path = some place.location ∧
      (files.put place.location (.file file)).fileAt? place.location = some file := by
  have stands := node?_of_locate reached leaf
  rw [node?_put files (ne_nil_of_frame?_none free), if_pos rfl] at stands
  have outlet : place.outlet? = some place.location := by
    cases place with
    | vacant location => rfl
    | occupied location node =>
      obtain rfl : Node.file file = node := by simpa [Place.node?] using stands
      rfl
  refine ⟨outlet?_of_node namedToo.slash ?_, by rw [fileAt?_put free, if_pos rfl]⟩
  rw [reached, outlet_ok, outlet]

private theorem framed_moved {old new : Location} (free : files.frame? old = none)
    (below : new ≠ []) : (files.erase new).Framed
      (((files.put old (.file file)).erase old).put new (.file file)) := by
  have belowToo : old ≠ [] := ne_nil_of_frame?_none free
  refine ⟨rfl, rfl, fun other => ?_⟩
  unfold frame?
  rw [node?_put _ below, node?_erase _ belowToo, node?_put _ belowToo, node?_erase _ below]
  by_cases own : other = new
  · rw [if_pos own, if_pos own]
  · rw [if_neg own, if_neg own]
    by_cases first : other = old
    · rw [if_pos first, first]
      exact free
    · rw [if_neg first, if_neg first]

/-- A file that was written beside and took the place of another is read at the path of that. -/
theorem readText_of_rename {beside : Path} {moved : FileSystem} {text : Text}
    (direct : files.Direct beside path)
    (written : files.write beside now (.text text) = .ok changed)
    (renamed : changed.rename beside path = .ok moved) : moved.readText path = .ok text := by
  obtain ⟨spot, leads, rfl⟩ := write_eq_ok.mp written
  have free := free_of_outlet? leads
  generalize own : ({ (files.fileAt? spot).getD ⟨.text [], now, false, false⟩ with
    contents := .text text, modified := now } : File) = file at renamed
  have holds : file.contents = .text text := by rw [← own]
  obtain ⟨old, node, new, source, target, rfl⟩ := rename_eq_ok.mp renamed
  obtain ⟨named, found⟩ := renameSource_eq_ok.mp source
  obtain ⟨rfl, rfl⟩ := found_beside free leads named.slash direct.beside found
  obtain ⟨namedToo, place, reached, rfl, leaf⟩ := renameTarget_eq_ok.mp target
  refine readText_eq_ok.mpr ⟨file, file?_eq_some.mpr ⟨place.location, ?_⟩, holds⟩
  split
  · rename_i same
    -- Both paths lead to the file that was written.
    obtain rfl : place.location = old := by simpa using same
    exact stands_written free namedToo reached leaf
  · have below := location_ne_nil reached leaf
    refine ⟨outlet?_of_node namedToo.slash ?_, by rw [fileAt?, node?_put _ below, if_pos rfl]⟩
    rw [← outlet_locate_congr (framed_moved free below)]
    exact outlet_erase direct.own (Framed.put free file) reached leaf

end ShaderBuild.FileSystem
