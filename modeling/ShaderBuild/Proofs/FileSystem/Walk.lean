import ShaderBuild.Proofs.FileSystem.Frame
/-!
Walks through a file system. Where a walk leads is a matter of the frame alone, so files that are
written or removed change no way to any other file.
-/
namespace ShaderBuild

namespace Place

def location : Place → Location
  | .occupied location _ => location
  | .vacant location => location

def node? : Place → Option Node
  | .occupied _ node => some node
  | .vacant _ => none

/-- The place without the file that may be there. -/
def bare : Place → Place
  | .occupied location (.file _) => .vacant location
  | place => place

/-- The location of a place that holds a file or nothing. -/
def outlet? (place : Place) : Option Location :=
  match place.bare with
  | .vacant location => some location
  | .occupied _ _ => none

theorem location_bare (place : Place) : place.bare.location = place.location := by
  cases place with
  | vacant location => rfl
  | occupied location node => cases node <;> rfl

theorem outlet?_eq_some {place : Place} {location : Location} :
    place.outlet? = some location ↔
      place = .vacant location ∨ ∃ file, place = .occupied location (.file file) := by
  cases place with
  | vacant other => simp [outlet?, bare]
  | occupied other node => cases node <;> simp [outlet?, bare]

theorem location_of_outlet? {place : Place} {location : Location}
    (leads : place.outlet? = some location) : place.location = location := by
  rcases outlet?_eq_some.mp leads with rfl | ⟨file, rfl⟩ <;> rfl

end Place

namespace FileSystem

variable {files first second : FileSystem} {aim : Aim} {links : Nat} {here location : Location}
  {steps : List Step} {place : Place}

/-- Where a resolved path leads in the frame. -/
def seen (found : Except FileError Place) : Option Place :=
  found.toOption.map Place.bare

/-- The location to which a resolved path leads, if a file is there or could be. -/
def outlet (found : Except FileError Place) : Option Location :=
  (seen found).bind Place.outlet?

theorem outlet_ok (place : Place) : outlet (.ok place) = place.outlet? := by
  cases place with
  | vacant location => rfl
  | occupied location node => cases node <;> rfl

theorem outlet_eq_some {found : Except FileError Place} :
    outlet found = some location ↔ ∃ place, found = .ok place ∧ place.outlet? = some location := by
  cases found with
  | error problem => simp [outlet, seen, Except.toOption]
  | ok place => simp [outlet_ok]

/-- Induction along a walk: over the links that may still be followed, then over the steps. -/
theorem walk_induction {motive : Nat → Location → List Step → Prop}
    (arrived : ∀ links here, motive links here [])
    (stay : ∀ links here rest, motive links here rest → motive links here (.stay :: rest))
    (slash : ∀ links here rest, motive links here rest → motive links here (.slash :: rest))
    (up : ∀ links here rest, motive links here.dropLast rest → motive links here (.up :: rest))
    (enter : ∀ links here name rest, motive links (here ++ [name]) rest →
      (∀ fewer < links, ∀ start steps, motive fewer start steps) →
      motive links here (.enter name :: rest))
    (links : Nat) (here : Location) (steps : List Step) : motive links here steps := by
  induction links using Nat.strongRecOn generalizing here steps with
  | ind links follow =>
    induction steps generalizing here with
    | nil => exact arrived links here
    | cons step rest walk =>
      cases step with
      | stay => exact stay links here rest (walk here)
      | up => exact up links here rest (walk _)
      | enter name => exact enter links here name rest (walk _) follow
      | slash => exact slash links here rest (walk here)

/-- Where the walk leads that enters a name: the frame decides. -/
theorem seen_enter (files : FileSystem) (aim : Aim) (links : Nat) (here : Location) (name : Text)
    (rest : List Step) :
    seen (files.walk aim links here (.enter name :: rest)) =
      if aim = .creation ∧ rest = [.slash] then none
      else if Text.byteLength name > maximalName then none
      else
        match files.frame? (here ++ [name]) with
        | none => if rest = [] then some (.vacant (here ++ [name])) else none
        | some .directory => seen (files.walk aim links (here ++ [name]) rest)
        | some (.file _) => none
        | some (.link target) =>
          if rest = [] ∧ aim = .node then some (.occupied (here ++ [name]) (.link target))
          else if links = 0 then none
          else
            seen (files.walk aim (links - 1) (if target.isAbsolute then [] else here)
              (target.wholeSteps ++ rest)) := by
  rw [walk]
  by_cases closed : aim = .creation ∧ rest = [.slash]
  · rw [if_pos closed, if_pos closed]
    rfl
  · rw [if_neg closed, if_neg closed]
    by_cases long : Text.byteLength name > maximalName
    · rw [if_pos long, if_pos long]
      rfl
    · rw [if_neg long, if_neg long, frame?]
      dsimp only
      cases found : files.node? (here ++ [name]) with
      | none => by_cases last : rest = [] <;> simp [last, seen, Except.toOption, Place.bare]
      | some node =>
        cases node with
        | file file => by_cases last : rest = [] <;> simp [last, seen, Except.toOption, Place.bare]
        | directory => rfl
        | link target =>
          by_cases ends : rest = [] ∧ aim = .node
          · simp [ends, seen, Except.toOption, Place.bare]
          · have goes : ¬(rest.isEmpty && aim == .node) = true := by simpa using ends
            dsimp only
            rw [if_neg goes, if_neg ends]
            cases links <;> rfl

/-- A walk leads to the same location through the same frame. -/
theorem seen_walk_congr (same : first.Framed second) (aim : Aim) (links : Nat) (here : Location)
    (steps : List Step) :
    seen (first.walk aim links here steps) = seen (second.walk aim links here steps) := by
  induction links, here, steps using walk_induction with
  | arrived links here => rw [walk, walk]
  | stay links here rest ih => rwa [walk, walk]
  | slash links here rest ih => rwa [walk, walk]
  | up links here rest ih => rwa [walk, walk]
  | enter links here name rest ih follow =>
    rw [seen_enter, seen_enter, same.frame, ih]
    cases second.frame? (here ++ [name]) with
    | none => rfl
    | some node =>
      cases node with
      | file file => rfl
      | directory => rfl
      | link target =>
        by_cases zero : links = 0
        · simp [zero]
        · dsimp only
          rw [follow (links - 1) (by omega)]

/-- A walk to a file ends by entering a name. -/
theorem enters_of_outlet (leads : outlet (files.walk aim links here steps) = some location) :
    ∃ name, steps.getLast? = some (.enter name) := by
  have later {step : Step} {rest : List Step}
      (enters : ∃ name, rest.getLast? = some (.enter name)) :
      ∃ name, (step :: rest).getLast? = some (.enter name) := by
    obtain ⟨name, last⟩ := enters
    exact ⟨name, by rw [List.getLast?_cons, last]; rfl⟩
  induction links, here, steps using walk_induction with
  | arrived links here =>
    rw [walk] at leads
    cases leads
  | stay links here rest ih =>
    rw [walk] at leads
    exact later (ih leads)
  | slash links here rest ih =>
    rw [walk] at leads
    exact later (ih leads)
  | up links here rest ih =>
    rw [walk] at leads
    exact later (ih leads)
  | enter links here name rest ih follow =>
    by_cases more : rest = []
    · exact ⟨name, by rw [more]; rfl⟩
    rw [outlet, seen_enter] at leads
    split at leads
    · cases leads
    split at leads
    · cases leads
    cases found : files.frame? (here ++ [name]) with
    | none => simp [found] at leads
    | some node =>
      rw [found] at leads
      cases node with
      | file file => cases leads
      | directory => exact later (ih leads)
      | link target =>
        dsimp only at leads
        rw [if_neg fun both => more both.1] at leads
        by_cases zero : links = 0
        · simp [zero] at leads
        · rw [if_neg zero] at leads
          obtain ⟨last, enters⟩ := follow (links - 1) (by omega) _ _ leads
          rw [List.getLast?_append, List.getLast?_eq_some_getLast more, Option.some_or,
            ← List.getLast?_eq_some_getLast more] at enters
          exact later ⟨last, enters⟩

theorem outlet_walk_slash (files : FileSystem) (aim : Aim) (links : Nat) (here : Location)
    (steps : List Step) : outlet (files.walk aim links here (steps ++ [.slash])) = none := by
  cases leads : outlet (files.walk aim links here (steps ++ [.slash])) with
  | none => rfl
  | some location =>
    obtain ⟨name, last⟩ := enters_of_outlet leads
    simp at last

/-- What can be made at a path is what the path leads to. -/
theorem outlet_walk_creation (files : FileSystem) (links : Nat) (here : Location)
    (steps : List Step) :
    outlet (files.walk .creation links here steps) = outlet (files.walk .target links here steps) := by
  induction links, here, steps using walk_induction with
  | arrived links here => rw [walk, walk]
  | stay links here rest ih => rwa [walk, walk]
  | slash links here rest ih => rwa [walk, walk]
  | up links here rest ih => rwa [walk, walk]
  | enter links here name rest ih follow =>
    by_cases ends : rest = [.slash]
    · subst ends
      have nothing := outlet_walk_slash files .target links here [.enter name]
      rw [List.cons_append, List.nil_append] at nothing
      rw [nothing, outlet, seen_enter, if_pos ⟨rfl, rfl⟩]
      rfl
    · have made : ¬(Aim.creation = .creation ∧ rest = [.slash]) := fun closed => ends closed.2
      have led : ¬(Aim.target = .creation ∧ rest = [.slash]) := fun closed => ends closed.2
      rw [outlet, outlet, seen_enter, seen_enter, if_neg made, if_neg led]
      by_cases long : Text.byteLength name > maximalName
      · rw [if_pos long, if_pos long]
      · rw [if_neg long, if_neg long]
        cases files.frame? (here ++ [name]) with
        | none => rfl
        | some node =>
          cases node with
          | file file => rfl
          | directory => exact ih
          | link target =>
            by_cases zero : links = 0
            · simp [zero]
            · have later := follow (links - 1) (by omega) (if target.isAbsolute then [] else here)
                (target.wholeSteps ++ rest)
              rw [outlet, outlet] at later
              simpa [zero] using later

/-- A walk that leads to no link ends where the walk ends that follows a link at its end. -/
theorem seen_walk_node (files : FileSystem) (links : Nat) (here : Location) (steps : List Step) :
    seen (files.walk .target links here steps) = seen (files.walk .node links here steps) ∨
      ∃ location target, seen (files.walk .node links here steps) =
        some (.occupied location (.link target)) := by
  induction links, here, steps using walk_induction with
  | arrived links here =>
    rw [walk, walk]
    exact .inl rfl
  | stay links here rest ih => rwa [walk, walk]
  | slash links here rest ih => rwa [walk, walk]
  | up links here rest ih => rwa [walk, walk]
  | enter links here name rest ih follow =>
    have led : ¬(Aim.target = .creation ∧ rest = [.slash]) := by simp
    have own : ¬(Aim.node = .creation ∧ rest = [.slash]) := by simp
    rw [seen_enter, seen_enter, if_neg led, if_neg own]
    by_cases long : Text.byteLength name > maximalName
    · rw [if_pos long, if_pos long]
      exact .inl rfl
    · rw [if_neg long, if_neg long]
      cases files.frame? (here ++ [name]) with
      | none => exact .inl rfl
      | some node =>
        cases node with
        | file file => exact .inl rfl
        | directory => exact ih
        | link target =>
          by_cases ends : rest = []
          · exact .inr ⟨here ++ [name], target, by simp [ends]⟩
          · by_cases zero : links = 0
            · simp [zero, ends]
            · have later := follow (links - 1) (by omega) (if target.isAbsolute then [] else here)
                (target.wholeSteps ++ rest)
              simpa [zero, ends] using later

/-- A walk ends with the node that stands where it ends, if that is no directory. -/
theorem node?_of_walk (found : files.walk aim links here steps = .ok place)
    (leaf : place.node? ≠ some .directory) : files.node? place.location = place.node? := by
  induction links, here, steps using walk_induction with
  | arrived links here =>
    rw [walk] at found
    obtain rfl := Except.ok.inj found
    exact absurd rfl leaf
  | stay links here rest ih =>
    rw [walk] at found
    exact ih found
  | slash links here rest ih =>
    rw [walk] at found
    exact ih found
  | up links here rest ih =>
    rw [walk] at found
    exact ih found
  | enter links here name rest ih follow =>
    rw [walk] at found
    split at found
    · simp at found
    split at found
    · simp at found
    dsimp only at found
    split at found
    · rename_i absent
      split at found
      · obtain rfl := Except.ok.inj found
        exact absent
      · simp at found
    · exact ih found
    · rename_i file present
      split at found
      · obtain rfl := Except.ok.inj found
        exact present
      · simp at found
    · rename_i target present
      split at found
      · obtain rfl := Except.ok.inj found
        exact present
      · cases links with
        | zero => simp at found
        | succ links => exact follow links (Nat.lt_succ_self _) _ _ found

end FileSystem

end ShaderBuild
