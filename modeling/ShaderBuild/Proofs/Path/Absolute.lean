import ShaderBuild.FileSystem.Walk
import ShaderBuild.Proofs.Text.Split
import Mathlib.Data.List.Basic
import Mathlib.Tactic.Common
/-!
Absolute paths, written out: the slashes in front, the parts that are kept, and a slash at the end.
-/
namespace ShaderBuild.Path

/-- The parts of a path that are more than fillers. -/
def solid (path : Path) : List Text :=
  (Text.splitOn '/' path.text).filter fun part => !isFiller part

/-- The text of an absolute path. -/
def written (lead : Text) (parts : List Text) (slash : Bool) : Path :=
  ⟨lead ++ Text.joinWith ['/'] parts ++ if slash && !parts.isEmpty then ['/'] else []⟩

/-- The slashes that the absolute form of a path begins with. -/
def lead (path : Path) : Text :=
  match path.text with
  | '/' :: '/' :: '/' :: _ => ['/']
  | '/' :: '/' :: _ => ['/', '/']
  | _ => ['/']

/-- A part that an absolute path keeps. -/
def Kept (part : Text) : Prop :=
  isFiller part = false ∧ '/' ∉ part

theorem kept_of_mem_solid {path : Path} {part : Text} (member : part ∈ path.solid) : Kept part := by
  obtain ⟨present, solid⟩ := List.mem_filter.mp member
  exact ⟨by simpa using solid, Text.not_mem_of_mem_splitOn present⟩

private theorem Kept.ne_nil {part : Text} (kept : Kept part) : part ≠ [] := by
  rintro rfl
  simp [Kept, isFiller] at kept

private theorem joinWith_concat {parts : List Text} (nonempty : parts ≠ []) (last : Text) :
    Text.joinWith ['/'] (parts ++ [last]) = Text.joinWith ['/'] parts ++ '/' :: last := by
  induction parts with
  | nil => exact absurd rfl nonempty
  | cons part parts ih =>
    cases parts with
    | nil => simp [Text.joinWith]
    | cons next parts =>
      have inner := ih (by simp)
      simp only [Text.joinWith, List.cons_append, List.intercalate_cons_cons] at inner ⊢
      rw [inner]
      simp

private theorem getLast?_joinWith {parts : List Text} (nonempty : parts ≠ [])
    (kept : ∀ part ∈ parts, Kept part) (front : Text) :
    (front ++ Text.joinWith ['/'] parts).getLast? ≠ some '/' := by
  obtain ⟨before, last, rfl⟩ := (List.eq_nil_or_concat' parts).resolve_left nonempty
  have own := kept last (by simp)
  obtain ⟨tail, whole⟩ : ∃ tail, front ++ Text.joinWith ['/'] (before ++ [last]) = tail ++ last := by
    by_cases alone : before = []
    · exact ⟨front, by simp [alone, Text.joinWith]⟩
    · exact ⟨front ++ Text.joinWith ['/'] before ++ ['/'], by simp [joinWith_concat alone]⟩
  rw [whole, List.getLast?_append_of_ne_nil _ own.ne_nil]
  exact fun slash => own.2 (List.mem_of_getLast? slash)

theorem join_written {lead : Text} {parts : List Text} {part : Text}
    (slashes : lead = ['/'] ∨ lead = ['/', '/']) (kept : ∀ part ∈ parts, Kept part)
    (own : Kept part) :
    (written lead parts false).join ⟨part⟩ = written lead (parts ++ [part]) false := by
  have relative : (⟨part⟩ : Path).isAbsolute = false := by
    cases part with
    | nil => rfl
    | cons c part =>
      have other : c ≠ '/' := fun same => own.2 (by simp [same])
      simpa [isAbsolute] using other
  rw [join, relative]
  by_cases empty : parts = []
  · subst empty
    rcases slashes with rfl | rfl <;> simp [written, Text.joinWith, endsInSlash]
  · have open_ : (written lead parts false).endsInSlash = false := by
      simpa [written, endsInSlash] using getLast?_joinWith empty kept lead
    have some : (written lead parts false).text.isEmpty = false := by
      rcases slashes with rfl | rfl <;> rfl
    rw [open_, some]
    simp [written, joinWith_concat empty]

theorem join_written_nil {lead : Text} {parts : List Text}
    (slashes : lead = ['/'] ∨ lead = ['/', '/']) (kept : ∀ part ∈ parts, Kept part) :
    (written lead parts false).join ⟨[]⟩ = written lead parts true := by
  have some : (written lead parts false).text.isEmpty = false := by
    rcases slashes with rfl | rfl <;> rfl
  by_cases empty : parts = []
  · subst empty
    rcases slashes with rfl | rfl <;> simp [written, Text.joinWith, endsInSlash, join, isAbsolute]
  · have open_ : (written lead parts false).endsInSlash = false := by
      simpa [written, endsInSlash] using getLast?_joinWith empty kept lead
    rw [join, open_, some]
    simp [written, empty, isAbsolute]

private theorem foldl_join {lead : Text} {parts : List Text} (components : List Component)
    (slashes : lead = ['/'] ∨ lead = ['/', '/']) (kept : ∀ part ∈ parts, Kept part)
    (own : ∀ part ∈ components.map Component.text, Kept part) :
    components.foldl (fun whole component => whole.join ⟨component.text⟩)
        (written lead parts false) =
      written lead (parts ++ components.map Component.text) false := by
  induction components generalizing parts with
  | nil => simp
  | cons component components ih =>
    rw [List.map_cons, List.forall_mem_cons] at own
    rw [List.foldl_cons, join_written slashes kept own.1, ih _ own.2]
    · simp
    · intro part member
      rcases List.mem_append.mp member with old | new
      · exact kept part old
      · exact List.mem_singleton.mp new ▸ own.1

private theorem texts_of_parts (parts : List Text) :
    (parts.filterMap component?).map Component.text = parts.filter fun part => !isFiller part := by
  induction parts with
  | nil => rfl
  | cons part parts ih =>
    rw [List.filterMap_cons, component?]
    by_cases filler : isFiller part = true
    · simp [filler, ih]
    · by_cases dots : part = ['.', '.']
      · subst dots
        simp [isFiller, Component.text, ih]
      · simp [filler, dots, Component.text, ih]

private theorem here_not_mem (parts : List Text) : Component.here ∉ parts.filterMap component? := by
  intro member
  obtain ⟨part, _, same⟩ := List.mem_filterMap.mp member
  unfold component? at same
  split at same
  · simp at same
  · split at same <;> simp at same

private theorem components_absolute {path : Path} {rest : Text} (begins : path.text = '/' :: rest) :
    ∃ components, path.components = .root :: components ∧
      components.map Component.text = path.solid := by
  refine ⟨(Text.splitOn '/' rest).filterMap component?, ?_, ?_⟩
  · simp [components, parts, begins, headComponents]
  · rw [texts_of_parts, solid, begins, Text.splitOn, if_pos rfl]
    simp [isFiller]

theorem solid_eq_of_components_eq {left right : Path} (rooted : left.isAbsolute = true)
    (rootedToo : right.isAbsolute = true) (same : left.components = right.components) :
    left.solid = right.solid := by
  have begins {path : Path} (rooted : path.isAbsolute = true) :
      ∃ rest, path.text = '/' :: rest := by
    unfold isAbsolute at rooted
    cases text : path.text with
    | nil => simp [text] at rooted
    | cons c rest =>
      obtain rfl : c = '/' := by simpa [text] using rooted
      exact ⟨rest, rfl⟩
  obtain ⟨_, first⟩ := begins rooted
  obtain ⟨_, second⟩ := begins rootedToo
  obtain ⟨_, own, solid⟩ := components_absolute first
  obtain ⟨_, ownToo, solidToo⟩ := components_absolute second
  rw [own, ownToo] at same
  rw [← solid, ← solidToo, (List.cons.inj same).2]

private theorem components_relative {path : Path} (relative : path.isAbsolute = false) :
    (path.components.filter (· != .here)).map Component.text = path.solid := by
  have keeps (parts : List Text) : (parts.filterMap component?).filter (· != .here) =
      parts.filterMap component? := by
    refine List.filter_eq_self.mpr fun component member => ?_
    have other : component ≠ .here := by
      rintro rfl
      exact here_not_mem parts member
    simpa using other
  unfold components parts solid
  split
  · rename_i rest begins
    simp [isAbsolute, begins] at relative
  · rename_i rest begins
    split
    · rename_i dot
      rw [begins]
      cases rest with
      | nil => simp [headComponents, Text.splitOn, component?, isFiller]
      | cons c rest =>
        obtain rfl : c = '/' := by simpa using dot
        have split := Text.splitOn_append '/' ['.'] rest
        rw [List.singleton_append] at split
        rw [split]
        simp [headComponents, Text.splitOn, component?, isFiller, keeps, texts_of_parts]
    · rw [begins]
      simp [headComponents, keeps, texts_of_parts]
  · simp [headComponents, keeps, texts_of_parts]

theorem lead_slashes (path : Path) : path.lead = ['/'] ∨ path.lead = ['/', '/'] := by
  unfold lead
  split <;> simp

/-- The absolute form of a path that is not empty, below a directory that is written so itself. -/
theorem absolute?_eq {base : List Text} (kept : ∀ part ∈ base, Kept part) {path : Path}
    (nonempty : path.text ≠ []) :
    absolute? (written ['/'] base false) path =
      some (written path.lead ((if path.isAbsolute then [] else base) ++ path.solid)
        path.endsInSlash) := by
  have empty : path.text.isEmpty = false := by simpa using nonempty
  -- All that is left is to put the solid parts below where the path starts.
  have whole (start : List Text) (startKept : ∀ part ∈ start, Kept part) (components : List Component)
      (own : components.map Component.text = path.solid) :
      (if path.endsInSlash then
          (components.foldl (fun whole component => whole.join ⟨component.text⟩)
            (written path.lead start false)).join ⟨[]⟩
        else components.foldl (fun whole component => whole.join ⟨component.text⟩)
          (written path.lead start false)) =
        written path.lead (start ++ path.solid) path.endsInSlash := by
    have keeps : ∀ part ∈ components.map Component.text, Kept part :=
      own ▸ fun part member => kept_of_mem_solid member
    rw [foldl_join components (lead_slashes path) startKept keeps, own]
    split
    · rename_i slash
      rw [slash, join_written_nil (lead_slashes path)]
      intro part member
      rcases List.mem_append.mp member with old | new
      · exact startKept part old
      · exact kept_of_mem_solid new
    · rename_i slash
      simp [slash]
  unfold absolute?
  rw [empty]
  cases absolute : path.isAbsolute with
  | false =>
    have own : path.lead = ['/'] := by
      unfold lead
      split <;> simp_all [isAbsolute]
    have relative := whole base kept _ (components_relative absolute)
    rw [own] at relative ⊢
    simpa using relative
  | true =>
    obtain ⟨rest, begins⟩ : ∃ rest, path.text = '/' :: rest := by
      unfold isAbsolute at absolute
      cases text : path.text with
      | nil => exact absurd text nonempty
      | cons c rest => exact ⟨rest, by simp_all⟩
    obtain ⟨components, same, own⟩ := components_absolute begins
    have rooted := whole [] (by simp) components own
    -- Exactly two slashes are the start themselves; otherwise the root is joined to the empty path.
    have start (join : Path → Component → Path) (root : join ⟨[]⟩ .root = ⟨['/']⟩) :
        let begins : Path × List Component :=
          match path.text with
          | '/' :: '/' :: '/' :: _ => (⟨[]⟩, path.components)
          | '/' :: '/' :: _ => (⟨['/', '/']⟩, path.components.drop 1)
          | _ => (⟨[]⟩, path.components)
        begins.2.foldl join begins.1 = components.foldl join (written path.lead [] false) := by
      unfold lead
      rw [same]
      split
      · exact congrArg (components.foldl join) root
      · rfl
      · exact congrArg (components.foldl join) root
    have first := start (fun whole component => whole.join ⟨component.text⟩) rfl
    have slashed := congrArg
      (fun whole => if path.endsInSlash then whole.join ⟨[]⟩ else whole) first
    exact congrArg some (slashed.trans rooted)

section Written

variable {lead : Text} {parts : List Text} (slash : Bool)
  (slashes : lead = ['/'] ∨ lead = ['/', '/']) (kept : ∀ part ∈ parts, Kept part)

include slashes in
theorem isAbsolute_written : (written lead parts slash).isAbsolute = true := by
  rcases slashes with rfl | rfl <;> simp [isAbsolute, written]

include slashes kept in
private theorem filterMap_written {β : Type} {f : Text → Option β} (empty : f [] = none) :
    (Text.splitOn '/' (written lead parts slash).text).filterMap f = parts.filterMap f := by
  have split : (Text.splitOn '/' (Text.joinWith ['/'] parts ++
      if slash && !parts.isEmpty then ['/'] else [])).filterMap f = parts.filterMap f := by
    by_cases bare : parts = []
    · subst bare
      simp [Text.joinWith, Text.splitOn, empty]
    · have whole := Text.splitOn_joinWith bare fun part member => (kept part member).2
      cases slash with
      | false => simp [whole]
      | true =>
        rw [if_pos (by simp [bare]), Text.splitOn_append, whole]
        simp [Text.splitOn, empty]
  have behind (rest : Text) : (Text.splitOn '/' ('/' :: rest)).filterMap f =
      (Text.splitOn '/' rest).filterMap f := by
    simp [Text.splitOn, empty]
  have shape : (written lead parts slash).text = lead ++ (Text.joinWith ['/'] parts ++
      if slash && !parts.isEmpty then ['/'] else []) := List.append_assoc _ _ _
  rw [shape]
  rcases slashes with rfl | rfl
  · exact (behind _).trans split
  · exact (behind _).trans ((behind _).trans split)

include slashes kept in
theorem solid_written : (written lead parts slash).solid = parts := by
  have solids : parts.filter (fun part => !isFiller part) = parts :=
    List.filter_eq_self.mpr fun part member => by simp [(kept part member).1]
  rw [solid, ← List.filterMap_eq_filter, filterMap_written slash slashes kept (by simp [isFiller]),
    List.filterMap_eq_filter, solids]

/-- The step that a part between slashes stands for, if it is more than a filler. -/
def stepOf (part : Text) : Step :=
  if part = ['.', '.'] then .up else .enter part

include slashes kept in
theorem steps_written : (written lead parts slash).steps = parts.map stepOf := by
  rw [steps, filterMap_written slash slashes kept (by simp)]
  rw [← List.filterMap_eq_map]
  refine List.filterMap_congr fun part member => ?_
  have solid := (kept part member).1
  simp only [isFiller, Bool.or_eq_false_iff, beq_eq_false_iff_ne] at solid
  simp only [stepOf, beq_iff_eq, if_neg solid.1, if_neg solid.2, Function.comp]
  split <;> rfl

include slashes kept in
theorem lead_written : (written lead parts slash).lead = lead := by
  have other : (Text.joinWith ['/'] parts ++
      if slash && !parts.isEmpty then ['/'] else []).head? ≠ some '/' := by
    cases parts with
    | nil => simp [Text.joinWith]
    | cons part parts =>
      have own := kept part (by simp)
      cases part with
      | nil => exact absurd rfl own.ne_nil
      | cons c part =>
        have first : c ≠ '/' := fun same => own.2 (by simp [same])
        simpa [Text.joinWith, List.intercalate_cons_cons_left] using first
  have whole : (written lead parts slash).text = lead ++ (Text.joinWith ['/'] parts ++
      if slash && !parts.isEmpty then ['/'] else []) := List.append_assoc _ _ _
  unfold Path.lead
  rw [whole]
  generalize Text.joinWith ['/'] parts ++ (if slash && !parts.isEmpty then ['/'] else []) = rest
    at other
  rcases slashes with rfl | rfl
  · split <;> simp_all
  · split <;> simp_all

include slashes kept in
theorem endsInSlash_written : (written lead parts slash).endsInSlash = (slash || parts.isEmpty) := by
  by_cases empty : parts = []
  · subst empty
    rcases slashes with rfl | rfl <;> simp [written, endsInSlash, Text.joinWith]
  · have ends := getLast?_joinWith empty kept lead
    cases slash with
    | true => simp [written, endsInSlash, empty]
    | false =>
      have none : parts.isEmpty = false := by simpa using empty
      have bare : (written lead parts false).text = lead ++ Text.joinWith ['/'] parts :=
        List.append_nil _
      rw [endsInSlash, bare, none, Bool.or_false]
      exact beq_eq_false_iff_ne.mpr ends

end Written

/-- The absolute form of a path from the root is its own absolute form. -/
theorem absolute?_absolute? {base : List Text} (kept : ∀ part ∈ base, Kept part) {path found : Path}
    (same : absolute? (written ['/'] base false) path = some found) :
    absolute? (written ['/'] base false) found = some found := by
  have nonempty : path.text ≠ [] := by
    intro empty
    simp [absolute?, empty] at same
  rw [absolute?_eq kept nonempty] at same
  obtain rfl := Option.some.inj same
  have slashes := lead_slashes path
  have parts : ∀ part ∈ (if path.isAbsolute then [] else base) ++ path.solid, Kept part := by
    intro part member
    rcases List.mem_append.mp member with old | new
    · split at old
      · simp at old
      · exact kept part old
    · exact kept_of_mem_solid new
  generalize (if path.isAbsolute then [] else base) ++ path.solid = all at parts
  have some : (written path.lead all path.endsInSlash).text ≠ [] := by
    rcases slashes with lead | lead <;> simp [written, lead]
  rw [absolute?_eq kept some, isAbsolute_written _ slashes, lead_written _ slashes parts,
    solid_written _ slashes parts, endsInSlash_written _ slashes parts]
  cases all <;> simp [written]

end ShaderBuild.Path
