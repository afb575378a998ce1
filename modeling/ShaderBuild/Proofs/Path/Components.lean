import ShaderBuild.Proofs.Path.Extension
/-!
The components of a path: a part behind a slash is one more, and the parent of a path has all but the
last.
-/
namespace ShaderBuild.Path

variable {path : Path} {base name : Text}

/-- A part behind a slash comes last among the parts. -/
theorem parts_below (some : path.text ≠ []) (whole : '/' ∉ name) :
    parts ⟨path.text ++ '/' :: name⟩ = (path.parts.1, path.parts.2 ++ [name]) := by
  have behind (rest : Text) : Text.splitOn '/' (rest ++ '/' :: name) =
      Text.splitOn '/' rest ++ [name] := by
    rw [Text.splitOn_append, Text.splitOn_piece whole]
  obtain ⟨text⟩ := path
  cases text with
  | nil => exact absurd rfl some
  | cons c rest =>
    unfold parts
    dsimp only [List.cons_append]
    split
    · rename_i same
      obtain ⟨rfl, rfl⟩ := List.cons.inj same
      simp [behind]
    · rename_i same
      obtain ⟨rfl, rfl⟩ := List.cons.inj same
      cases rest with
      | nil => simp [Text.splitOn, Text.splitOn_piece whole]
      | cons d rest =>
        by_cases slash : d = '/'
        · simp [slash, ← behind]
        · have own := behind ('.' :: d :: rest)
          simp [slash, ← own]
    · rename_i root dot
      have first : c ≠ '/' := fun same => root _ (by rw [same])
      have second : c ≠ '.' := fun same => dot _ (by rw [same])
      simp [first, second, ← behind]

private theorem parts_root (whole : '/' ∉ name) : parts ⟨'/' :: name⟩ = (['/'], [name]) := by
  change (['/'], Text.splitOn '/' name) = _
  rw [Text.splitOn_piece whole]

private theorem parts_bare (whole : '/' ∉ name) (other : name ≠ ['.']) :
    parts ⟨name⟩ = ([], [name]) := by
  unfold parts
  split
  · simp_all
  · rename_i rest same
    dsimp only at same
    subst same
    have inner : ¬(rest.isEmpty || rest.head? == some '/') = true := by
      simp only [Bool.or_eq_true, List.isEmpty_iff, beq_iff_eq, not_or]
      refine ⟨fun none => other (by rw [none]), fun slash => whole ?_⟩
      exact List.mem_cons_of_mem _ (List.mem_of_mem_head? slash)
    rw [if_neg inner, Text.splitOn_piece whole]
  · rw [Text.splitOn_piece whole]

theorem below_induction {motive : Path → Prop} (bare : ∀ name : Text, '/' ∉ name → motive ⟨name⟩)
    (root : ∀ name : Text, '/' ∉ name → motive ⟨'/' :: name⟩)
    (below : ∀ (path : Path) (name : Text), path.text ≠ [] → '/' ∉ name → motive path →
      motive ⟨path.text ++ '/' :: name⟩) (path : Path) : motive path := by
  obtain ⟨text⟩ := path
  induction size : text.length using Nat.strong_induction_on generalizing text with
  | _ size' ih =>
    obtain ⟨base, name, rfl, rfl | ⟨front, rfl⟩, whole⟩ := exists_base text
    · exact bare name whole
    · rw [List.append_assoc, List.singleton_append] at size ⊢
      by_cases none : front = []
      · subst none
        exact root name whole
      · refine below ⟨front⟩ name none whole (ih front.length ?_ front rfl)
        simp [← size]

theorem components_below (some : path.text ≠ []) (whole : '/' ∉ name) :
    components ⟨path.text ++ '/' :: name⟩ = path.components ++ (component? name).toList := by
  rw [components, parts_below some whole, components, List.filterMap_append, List.append_assoc]
  cases named : component? name <;> simp [named]

private theorem components_root (whole : '/' ∉ name) :
    components ⟨'/' :: name⟩ = .root :: (component? name).toList := by
  rw [components, parts_root whole]
  cases named : component? name <;> simp [named, headComponents]

private theorem components_bare (whole : '/' ∉ name) (other : name ≠ ['.']) :
    components ⟨name⟩ = (component? name).toList := by
  rw [components, parts_bare whole other]
  cases named : component? name <;> simp [named, headComponents]

/-- What stands behind a directory part is one more component, if it is one. -/
theorem IsBase.components (is : IsBase base) (whole : '/' ∉ name)
    (far : base ≠ [] ∨ name ≠ ['.']) :
    Path.components ⟨base ++ name⟩ = Path.components ⟨base⟩ ++ (component? name).toList := by
  rcases is with rfl | ⟨front, rfl⟩
  · exact components_bare whole (far.resolve_left (by simp))
  · have apart : '/' ∉ ([] : Text) := by simp
    rw [List.append_assoc, List.singleton_append]
    by_cases none : front = []
    · subst none
      rw [List.nil_append, List.nil_append, components_root whole, components_root apart]
      rfl
    · have directory := @components_below ⟨front⟩ [] none apart
      rw [@components_below ⟨front⟩ name none whole, directory]
      simp [component?, isFiller]

/-- The fillers at the end of a path are no components. -/
theorem components_dropFillers (path : Path) :
    components ⟨path.parts.1 ++ Text.joinWith ['/'] (dropFillers path.parts.2)⟩ =
      path.components := by
  induction path using below_induction with
  | bare name whole =>
    by_cases filler : isFiller name = true
    · rw [isFiller, Bool.or_eq_true, beq_iff_eq, beq_iff_eq] at filler
      rcases filler with rfl | rfl <;> rfl
    · rw [parts_bare whole (by rintro rfl; simp [isFiller] at filler)]
      simp [dropFillers, filler, Text.joinWith]
  | root name whole =>
    rw [parts_root whole]
    by_cases filler : isFiller name = true
    · rw [components_root whole, component?, if_pos filler]
      simp [dropFillers, filler, Text.joinWith]
      rfl
    · simp [dropFillers, filler, Text.joinWith]
  | below path name some whole ih =>
    rw [parts_below some whole]
    by_cases filler : isFiller name = true
    · rw [components_below some whole, component?, if_pos filler, ← ih]
      simp [dropFillers, filler]
    · obtain ⟨rest, pieces, text, _⟩ := parts_eq ⟨path.text ++ '/' :: name⟩
      rw [parts_below some whole] at pieces text
      have same : dropFillers (path.parts.2 ++ [name]) = path.parts.2 ++ [name] := by
        simp [dropFillers, filler]
      dsimp only at pieces text ⊢
      rw [same, pieces, Text.joinWith_splitOn, ← text]

/-- The parent of a path has the components of its directory part. -/
theorem Ends.parent? (ends : path.Ends base name) :
    ∃ parent, path.parent? = some parent ∧ parent.components = Path.components ⟨base⟩ := by
  obtain ⟨text, is, whole, solid⟩ := ends
  obtain ⟨own⟩ := path
  obtain rfl : own = base ++ name := text
  rcases is with rfl | ⟨front, rfl⟩
  · have other : name ≠ ['.'] := by
      rintro rfl
      simp [isFiller] at solid
    refine ⟨⟨[]⟩, ?_, rfl⟩
    rw [List.nil_append, Path.parent?, parents, parts_bare whole other]
    simp [parents.go, solid, dropFillers, Text.joinWith]
  · rw [List.append_assoc, List.singleton_append]
    by_cases none : front = []
    · subst none
      refine ⟨⟨['/']⟩, ?_, rfl⟩
      rw [List.nil_append, Path.parent?, parents, parts_root whole]
      simp [parents.go, solid, dropFillers, Text.joinWith]
    · refine ⟨⟨(parts ⟨front⟩).1 ++ Text.joinWith ['/'] (dropFillers (parts ⟨front⟩).2)⟩, ?_, ?_⟩
      · rw [Path.parent?, parents, @parts_below ⟨front⟩ name none whole]
        simp [parents.go, solid]
      · rw [components_dropFillers, @components_below ⟨front⟩ [] none (by simp)]
        simp [component?, isFiller]

theorem Ends.fileName? (ends : path.Ends base name) (proper : name ≠ ['.', '.']) :
    path.fileName? = some name := by
  obtain ⟨front, last, _⟩ := ends.lastPart?
  rw [Path.fileName?, last]
  simp [proper]

theorem Ends.fileName?_up (ends : path.Ends base ['.', '.']) : path.fileName? = none := by
  obtain ⟨front, last, _⟩ := ends.lastPart?
  rw [Path.fileName?, last]
  rfl

theorem component?_of_fileName? (named : path.fileName? = some name) :
    component? name = some (.name name) := by
  unfold Path.fileName? at named
  split at named
  · rename_i before last found
    unfold lastPart? at found
    split at found
    · cases found
    · rename_i own rest same
      have solid := List.head_dropWhile_not isFiller (l := path.parts.2.reverse) (by simp [same])
      simp only [same, List.head_cons] at solid
      obtain rfl : own = last := (Prod.mk.inj (Option.some.inj found)).2
      split at named
      · cases named
      · rename_i proper
        obtain rfl := Option.some.inj named
        rw [component?, solid]
        simpa using proper
  · cases named

/-- Below a directory, what stands before a part is a directory part with the same components. -/
theorem exists_base_join (directory : Path) : ∃ base, IsBase base ∧
    Path.components ⟨base⟩ = directory.components ∧
    ∀ name : Text, '/' ∉ name → directory.join ⟨name⟩ = ⟨base ++ name⟩ := by
  have relative {name : Text} (whole : '/' ∉ name) : (⟨name⟩ : Path).isAbsolute = false :=
    beq_eq_false_iff_ne.mpr fun slash => whole (List.mem_of_mem_head? slash)
  by_cases stays : (directory.text.isEmpty || directory.endsInSlash) = true
  · refine ⟨directory.text, ?_, rfl, fun name whole => ?_⟩
    · rcases Bool.or_eq_true_iff.mp stays with empty | slash
      · exact .inl (List.isEmpty_iff.mp empty)
      · obtain ⟨front, last⟩ := List.getLast?_eq_some_iff.mp (beq_iff_eq.mp slash)
        exact .inr ⟨front, last⟩
    · rw [join, relative whole, if_neg Bool.false_ne_true, if_pos stays]
  · have some : directory.text ≠ [] := by
      intro empty
      simp [empty] at stays
    refine ⟨directory.text ++ ['/'], .inr ⟨_, rfl⟩, ?_, fun name whole => ?_⟩
    · rw [components_below some (by simp)]
      exact List.append_nil _
    · rw [join, relative whole, if_neg Bool.false_ne_true, if_neg stays, List.append_assoc]
      rfl

/-- The path is that of a file of the name in the directory. -/
structure Lies (path directory : Path) (name : Text) : Prop where
  fileName : path.fileName? = some name
  parent : ∃ parent, path.parent? = some parent ∧ parent.same directory = true

theorem Ends.lies {directory : Path} (ends : path.Ends base name) (proper : name ≠ ['.', '.'])
    (same : Path.components ⟨base⟩ = directory.components) : path.Lies directory name := by
  obtain ⟨parent, found, own⟩ := ends.parent?
  exact ⟨ends.fileName? proper, parent, found, by simp [Path.same, own, same]⟩

theorem text_eq_nil_of_components (none : path.components = []) : path.text = [] := by
  induction path using below_induction with
  | bare name whole =>
    by_contra some
    by_cases dot : name = ['.']
    · subst dot
      cases none
    · rw [components_bare whole dot, component?, if_neg (by simpa [isFiller, dot] using some)] at none
      split at none <;> cases none
  | root name whole =>
    rw [components_root whole] at none
    cases none
  | below path name some whole ih =>
    rw [components_below some whole] at none
    exact absurd (ih (List.append_eq_nil_iff.mp none).1) some

/-- The path up to its last slash. -/
def folder (path : Path) : Path :=
  ⟨(path.text.reverse.dropWhile (· != '/')).reverse⟩

/-- What follows the last slash of the path. -/
def leaf (path : Path) : Text :=
  (path.text.reverse.takeWhile (· != '/')).reverse

theorem folder_leaf (is : IsBase base) (whole : '/' ∉ name) :
    folder ⟨base ++ name⟩ = ⟨base⟩ ∧ leaf ⟨base ++ name⟩ = name := by
  have inside : ∀ c ∈ name.reverse, (c != '/') = true := by
    intro c member
    simpa using fun same : c = '/' => whole (same ▸ List.mem_reverse.mp member)
  rw [folder, leaf, List.reverse_append, List.takeWhile_append_of_pos inside,
    List.dropWhile_append_of_pos inside]
  rcases is with rfl | ⟨front, rfl⟩ <;> simp

theorem cut_leaf (path : Path) :
    path.text = path.folder.text ++ path.leaf ∧ IsBase path.folder.text ∧ '/' ∉ path.leaf := by
  obtain ⟨text⟩ := path
  obtain ⟨base, name, rfl, is, whole⟩ := exists_base text
  obtain ⟨folder, leaf⟩ := folder_leaf is whole
  rw [folder, leaf]
  exact ⟨rfl, is, whole⟩

theorem Ends.folder_leaf (ends : path.Ends base name) : path.folder = ⟨base⟩ ∧ path.leaf = name := by
  obtain ⟨text⟩ := path
  obtain rfl : text = base ++ name := ends.text
  exact Path.folder_leaf ends.base ends.whole

theorem folder_leaf_extend (path : Path) {suffix : String} (apart : '/' ∉ suffix.toList) :
    (path.extend suffix).folder = path.folder ∧
      (path.extend suffix).leaf = path.leaf ++ suffix.toList := by
  obtain ⟨text, is, whole⟩ := path.cut_leaf
  rw [extend, text, List.append_assoc]
  exact folder_leaf is (by simp [whole, apart])

/-- The components of a path are a matter of those of its folder and of what follows. -/
theorem components_congr {other : Path} (same : path.folder.components = other.folder.components)
    (leaves : path.leaf = other.leaf) : path.components = other.components := by
  obtain ⟨text, is, whole⟩ := path.cut_leaf
  obtain ⟨textToo, isToo, wholeToo⟩ := other.cut_leaf
  by_cases near : path.folder.text = [] ∨ other.folder.text = []
  · -- The path has no slash, and then the other has none either.
    have none : path.folder.text = [] ∧ other.folder.text = [] := by
      rcases near with none | none
      · refine ⟨none, text_eq_nil_of_components (same.symm.trans ?_)⟩
        rw [show path.folder = ⟨[]⟩ from congrArg Path.mk none]
        rfl
      · refine ⟨text_eq_nil_of_components (same.trans ?_), none⟩
        rw [show other.folder = ⟨[]⟩ from congrArg Path.mk none]
        rfl
    rw [none.1] at text
    rw [none.2, ← leaves, ← text] at textToo
    exact congrArg Path.components (congrArg Path.mk textToo.symm)
  · obtain ⟨far, farToo⟩ := not_or.mp near
    have own := is.components whole (.inl far)
    have ownToo := isToo.components wholeToo (.inl farToo)
    rw [← text] at own
    rw [← textToo] at ownToo
    rw [own, ownToo, leaves]
    exact congrArg (· ++ _) same

theorem components_extend (path : Path) {suffix : String} (apart : '/' ∉ suffix.toList)
    (long : 2 < suffix.toList.length) : (path.extend suffix).components =
      path.folder.components ++ [.name (path.leaf ++ suffix.toList)] := by
  obtain ⟨text, is, whole⟩ := path.cut_leaf
  have size {other : Text} (same : path.leaf ++ suffix.toList = other) : 2 < other.length := by
    rw [← same, List.length_append]
    omega
  have none : path.leaf ++ suffix.toList ≠ [] := fun same => by simpa using size same
  have here : path.leaf ++ suffix.toList ≠ ['.'] := fun same => by simpa using size same
  have up : path.leaf ++ suffix.toList ≠ ['.', '.'] := fun same => by simpa using size same
  have named : component? (path.leaf ++ suffix.toList) =
      some (.name (path.leaf ++ suffix.toList)) := by
    rw [component?, if_neg (by simp [isFiller, none, here]), if_neg (by simpa using up)]
  rw [extend, text, List.append_assoc, is.components (by simp [whole, apart]) (.inr here), named]
  rfl

end ShaderBuild.Path
