import ShaderBuild.Expansion.Source
import ShaderBuild.Proofs.Expansion.Separation
/-!
Following includes, as one equation for each errand, and what the outcome depends on: the names that
are asked for, not where they are asked for.
-/
namespace ShaderBuild

theorem bind_eq_ok {ε α β : Type} {first : Except ε α} {next : α → Except ε β} {result : β} :
    first.bind next = .ok result ↔ ∃ value, first = .ok value ∧ next value = .ok result := by
  cases first with
  | error problem => simp [Except.bind]
  | ok value => simp [Except.bind]

/-- The outcome of an expansion made of two. -/
theorem Expanding.value_bind {α β : Type} (files : FileSystem) (first : Expanding α)
    (next : α → Expanding β) :
    ((first >>= next).run files).value =
      (first.run files).value.bind fun value => ((next value).run files).value := by
  rw [Expanding.run_bind, Logged.value_bind]
  cases (first.run files).value <;> rfl

namespace Errand

/-- The name of a file to find. -/
def name? : Errand → Option Text
  | .note _ => none
  | .fetch _ name => some name

/-- The names of the files to find, in order. -/
def names (errands : List Errand) : List Text :=
  errands.filterMap name?

@[simp] theorem names_note (offset : Nat) (errands : List Errand) :
    names (.note offset :: errands) = names errands := rfl

@[simp] theorem names_fetch (path : Path) (name : Text) (errands : List Errand) :
    names (.fetch path name :: errands) = name :: names errands := rfl

theorem names_append (first second : List Errand) :
    names (first ++ second) = names first ++ names second :=
  List.filterMap_append

private theorem names_pieces (path : Path) (offset : Nat) (marks : List Mark) :
    names ((Mark.pieces offset marks).filterMap (ofPiece? path)) = Mark.asked marks := by
  induction marks generalizing offset with
  | nil => rfl
  | cons mark rest ih =>
    cases mark with
    | char c =>
      rw [Mark.pieces]
      split <;> simp [ofPiece?, Mark.asked, Mark.include?] <;> exact ih _
    | marker kind body =>
      have later := ih (offset + Text.byteLength (Mark.text (.marker kind body)))
      rw [Mark.pieces]
      cases same : Scan.directive kind body <;>
        simp [ofPiece?, Mark.asked, Mark.include?, same] <;> exact later

theorem names_ofText (path : Path) {marks : List Mark} (legible : Mark.Legible marks) :
    names (ofText path (Mark.flat marks)) = Mark.asked marks := by
  rw [ofText, Mark.scan_flat legible]
  exact names_pieces path 0 marks

end Errand

namespace Include

section
variable {files : FileSystem} {search : SearchPath} {path found : Path} {name : Text} {set : PathSet}

theorem follow_unresolved (errands : List Errand) (missing : search.resolve? files name = none) :
    follow files search (.fetch path name :: errands) set =
      .ofExcept (.error (.unresolvedInclude path name search.roots)) := by
  rw [follow]
  split
  · rfl
  · simp_all

theorem follow_present (errands : List Errand) (resolved : search.resolve? files name = some found)
    (present : set.contains found = true) :
    follow files search (.fetch path name :: errands) set = follow files search errands set := by
  rw [follow]
  split
  · simp_all
  · rename_i other same
    obtain rfl : found = other := by simpa [resolved] using same
    rw [dif_pos present]

theorem follow_read (errands : List Errand) (resolved : search.resolve? files name = some found)
    (fresh : set.contains found = false) :
    follow files search (.fetch path name :: errands) set =
      Expanding.note .trace .expansion s!"{path} includes {found}" >>= fun _ =>
        Expanding.readText found >>= fun text =>
          follow files search (Errand.ofText found text ++ errands) (set.insert found) := by
  rw [follow]
  split
  · simp_all
  · rename_i other same
    obtain rfl : found = other := by simpa [resolved] using same
    rw [dif_neg (by simp [fresh])]

/-- Errands may be done in two parts. -/
theorem follow_append (first second : List Errand) (set : PathSet) :
    follow files search (first ++ second) set =
      follow files search first set >>= fun next => follow files search second next := by
  induction first, set using follow.induct files search with
  | case1 set => rw [List.nil_append, follow, pure_bind]
  | case2 offset rest set ih =>
    rw [List.cons_append, follow, follow, bind_assoc]
    exact bind_congr fun _ => ih
  | case3 path name rest set missing =>
    rw [List.cons_append, follow_unresolved _ missing, follow_unresolved _ missing]
    rfl
  | case4 path name rest set found resolved present ih =>
    rw [List.cons_append, follow_present _ resolved present, follow_present _ resolved present, ih]
  | case5 path name rest set found resolved absent ih =>
    have fresh : set.contains found = false := by simpa using absent
    rw [List.cons_append, follow_read _ resolved fresh, follow_read _ resolved fresh, bind_assoc]
    apply bind_congr
    intro _
    rw [bind_assoc]
    apply bind_congr
    intro text
    rw [← List.append_assoc]
    exact ih text

end

variable (files : FileSystem) (search : SearchPath)

/-- The outcome of following errands among files that stay as they are. -/
def outcome (errands : List Errand) (set : PathSet) : Except ExpansionError PathSet :=
  ((follow files search errands set).run files).value

@[simp] theorem outcome_nil (set : PathSet) : outcome files search [] set = .ok set := by
  rw [outcome, follow]
  rfl

@[simp] theorem outcome_note (offset : Nat) (errands : List Errand) (set : PathSet) :
    outcome files search (.note offset :: errands) set = outcome files search errands set := by
  rw [outcome, follow, Expanding.value_bind]
  rfl

variable {files search} {path found : Path} {name : Text} {set : PathSet}

theorem outcome_unresolved (errands : List Errand) (missing : search.resolve? files name = none) :
    outcome files search (.fetch path name :: errands) set =
      .error (.unresolvedInclude path name search.roots) := by
  rw [outcome, follow_unresolved _ missing]
  rfl

theorem outcome_present (errands : List Errand) (resolved : search.resolve? files name = some found)
    (present : set.contains found = true) :
    outcome files search (.fetch path name :: errands) set = outcome files search errands set := by
  rw [outcome, follow_present _ resolved present, outcome]

theorem outcome_read (errands : List Errand) (resolved : search.resolve? files name = some found)
    (fresh : set.contains found = false) :
    outcome files search (.fetch path name :: errands) set =
      ((files.readText found).mapError (.unreadable found)).bind fun text =>
        outcome files search (Errand.ofText found text ++ errands) (set.insert found) := by
  rw [outcome, follow_read _ resolved fresh, Expanding.value_bind]
  change Except.bind (.ok ()) _ = _
  rw [Except.bind, Expanding.value_bind]
  rfl

theorem outcome_of_names_nil {errands : List Errand} (none : Errand.names errands = []) :
    outcome files search errands set = .ok set := by
  induction errands with
  | nil => simp
  | cons errand errands ih =>
    cases errand with
    | note offset => rw [outcome_note, ih none]
    | fetch path name => simp at none

theorem outcome_of_names_cons {errands : List Errand} {names : List Text}
    (first : Errand.names errands = name :: names) :
    ∃ path rest, Errand.names rest = names ∧
      outcome files search errands set = outcome files search (.fetch path name :: rest) set := by
  induction errands with
  | nil => simp [Errand.names] at first
  | cons errand errands ih =>
    cases errand with
    | note offset =>
      obtain ⟨path, rest, same, equal⟩ := ih first
      exact ⟨path, rest, same, by rw [outcome_note, equal]⟩
    | fetch path own =>
      obtain ⟨rfl, same⟩ := List.cons.inj first
      exact ⟨path, errands, same, rfl⟩

theorem outcome_congr {first second : List Errand}
    (same : Errand.names first = Errand.names second) :
    (outcome files search first set).toOption = (outcome files search second set).toOption := by
  induction first, set using follow.induct files search generalizing second with
  | case1 set => rw [outcome_nil, outcome_of_names_nil same.symm]
  | case2 offset rest set ih => rw [outcome_note, ih same]
  | case3 path name rest set missing =>
    obtain ⟨other, later, _, equal⟩ := outcome_of_names_cons same.symm
    rw [equal, outcome_unresolved _ missing, outcome_unresolved _ missing]
    rfl
  | case4 path name rest set found resolved present ih =>
    obtain ⟨other, later, agree, equal⟩ := outcome_of_names_cons same.symm
    rw [equal, outcome_present _ resolved present, outcome_present _ resolved present, ih agree.symm]
  | case5 path name rest set found resolved fresh ih =>
    obtain ⟨other, later, agree, equal⟩ := outcome_of_names_cons same.symm
    have new : set.contains found = false := by simpa using fresh
    rw [equal, outcome_read _ resolved new, outcome_read _ resolved new]
    cases files.readText found with
    | error problem => rfl
    | ok text =>
      refine ih text ?_
      rw [Errand.names_append, Errand.names_append]
      exact congrArg _ agree.symm

theorem collect_congr {first second : List Mark} (legible : Mark.Legible first)
    (legibleToo : Mark.Legible second) (same : Mark.asked first = Mark.asked second)
    (path other : Path) :
    (((collect files search path (Mark.flat first)).run files).value).toOption =
      (((collect files search other (Mark.flat second)).run files).value).toOption :=
  outcome_congr (by rw [Errand.names_ofText path legible, Errand.names_ofText other legibleToo, same])

end Include

variable (files : FileSystem) (search : SearchPath)

/-- Listing dependencies among files that stay as they are. -/
theorem value_discover (source : Path) (headers : List Path) :
    ((discover files search source headers).run files).value =
      ((files.readText source).mapError (.unreadable source)).bind fun text =>
        ((Include.collect files search source text).run files).value.bind fun included =>
          .ok (included.withSource files source headers) := by
  rw [discover, Expanding.value_bind]
  congr 1
  funext text
  rw [Expanding.value_bind]
  rfl

namespace Source

theorem value_read {path : Path} {stage : ShaderStage} (known : ShaderStage.ofPath? path = some stage) :
    ((read files path).run files).value =
      ((files.readText path).mapError (.unreadable path)).bind fun text =>
        .ok ⟨files.absolute path, text, stage⟩ := by
  rw [read, known]
  exact Expanding.value_bind files _ _

/-- The text that is left of a body before its includes are followed. -/
def settled (text : Text) : Text :=
  (nativeConditionals (dropComments text).value).value

theorem settled_flat {marks : List Mark} (first : Mark.Legible marks)
    (second : Mark.Legible (marks.flatMap
      (Mark.rewrite fun directive => if directive = .comment then some [] else none))) :
    settled (Mark.flat marks) = Mark.flat (marks.flatMap (Mark.rewrite Mark.settle)) := by
  have comments : (dropComments (Mark.flat marks)).value = _ := Mark.replaceMarkers_flat _ first
  rw [settled, comments, nativeConditionals, Mark.replaceMarkers_flat _ second, Mark.flatMap_settle]

/-- Making a body among files that stay as they are. -/
theorem value_body (source : Source) :
    ((source.body files search).run files).value =
      (defineBlocks source.path source.text).run.value.bind fun rendered =>
        ((Include.collect files search source.path (settled rendered)).run files).value.bind
          fun included =>
            let text := (replaceMarkers Include.nativeLine? (settled rendered)).value
            (checkLeftovers source.path text).bind fun _ => .ok (text, included) := by
  rw [body, Expanding.value_bind]
  congr 1
  funext rendered
  rw [Expanding.value_bind]
  change Except.bind (.ok (dropComments rendered).value) _ = _
  rw [Except.bind, Expanding.value_bind]
  change Except.bind (.ok (settled rendered)) _ = _
  rw [Except.bind, Expanding.value_bind, nativeIncludes, Expanding.value_bind]
  cases ((Include.collect files search source.path (settled rendered)).run files).value with
  | error problem => rfl
  | ok included => exact Expanding.value_bind files _ _

/-- Expanding a source among files that stay as they are. -/
theorem value_expand (source : Source) (preamble : Preamble) :
    ((source.expand files search preamble).run files).value =
      ((source.body files search).run files).value.bind fun found =>
        ((preamble.headers.mapM Expanding.readText).run files).value.bind fun headers =>
          .ok ⟨Text.joinWith ['\n'] (preamble.sections source.stage headers ++ [found.1]),
            found.2.withSource files source.path preamble.headers⟩ := by
  rw [expand, Expanding.value_bind]
  change ((source.body files search >>= _).run files).value = _
  rw [Expanding.value_bind]
  congr 1
  funext found
  exact Expanding.value_bind files _ _

variable {files search} in
/-- An expansion writes what the passes leave of the text behind the headers and the definitions, and
lists what the includes lead to. -/
theorem expand_eq_ok {source : Source} {preamble : Preamble} {expanded : Expanded} :
    ((source.expand files search preamble).run files).value = .ok expanded ↔
      ∃ rendered included headers, (defineBlocks source.path source.text).run.value = .ok rendered ∧
        ((Include.collect files search source.path (settled rendered)).run files).value =
          .ok included ∧
        checkLeftovers source.path (replaceMarkers Include.nativeLine? (settled rendered)).value =
          .ok () ∧
        ((preamble.headers.mapM Expanding.readText).run files).value = .ok headers ∧
        expanded = ⟨Text.joinWith ['\n'] (preamble.sections source.stage headers ++
            [(replaceMarkers Include.nativeLine? (settled rendered)).value]),
          included.withSource files source.path preamble.headers⟩ := by
  rw [value_expand, value_body]
  constructor
  · intro expands
    obtain ⟨⟨body, included⟩, made, expands⟩ := bind_eq_ok.mp expands
    obtain ⟨headers, heads, expands⟩ := bind_eq_ok.mp expands
    obtain ⟨rendered, blocks, made⟩ := bind_eq_ok.mp made
    obtain ⟨found, follows, made⟩ := bind_eq_ok.mp made
    obtain ⟨_, passed, made⟩ := bind_eq_ok.mp made
    obtain ⟨rfl, rfl⟩ := Prod.mk.inj (Except.ok.inj made)
    exact ⟨rendered, found, headers, blocks, follows, passed, heads, (Except.ok.inj expands).symm⟩
  · rintro ⟨rendered, included, headers, blocks, follows, passed, heads, rfl⟩
    refine bind_eq_ok.mpr ⟨((replaceMarkers Include.nativeLine? (settled rendered)).value, included),
      ?_, bind_eq_ok.mpr ⟨headers, heads, rfl⟩⟩
    exact bind_eq_ok.mpr ⟨rendered, blocks, bind_eq_ok.mpr ⟨included, follows,
      bind_eq_ok.mpr ⟨(), passed, rfl⟩⟩⟩

end Source

/-- Reading files one after another gives their texts. -/
theorem Expanding.mapM_readText_eq_ok {files : FileSystem} {paths : List Path} {texts : List Text} :
    ((paths.mapM Expanding.readText).run files).value = .ok texts ↔
      List.Forall₂ (fun path text => files.readText path = .ok text) paths texts := by
  have reads {path : Path} {text : Text} :
      ((Expanding.readText path).run files).value = .ok text ↔ files.readText path = .ok text := by
    rw [Expanding.run_readText]
    cases files.readText path <;> simp [Pure.pure, Logged.pure, Except.mapError]
  induction paths generalizing texts with
  | nil =>
    rw [List.mapM_nil, Expanding.run_pure, List.forall₂_nil_left_iff]
    exact ⟨fun same => (Except.ok.inj same).symm, fun none => congrArg Except.ok none.symm⟩
  | cons path paths ih =>
    rw [List.mapM_cons, Expanding.value_bind, bind_eq_ok]
    simp only [Expanding.value_bind, bind_eq_ok, reads, ih]
    constructor
    · rintro ⟨text, own, others, rest, same⟩
      obtain rfl := Except.ok.inj same
      exact .cons own rest
    · rintro (_ | ⟨own, rest⟩)
      exact ⟨_, own, _, rest, rfl⟩

end ShaderBuild
