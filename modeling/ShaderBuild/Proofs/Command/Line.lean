import ShaderBuild.Command.List
/-!
What the fields of a line say: the command that they spell, or the first of them that is wrong.
-/
namespace ShaderBuild

theorem Variant.ofName?_eq_some {name : Text} {variant : Variant} :
    Variant.ofName? name = some variant ↔ variant.name.toList = name := by
  constructor
  · intro found
    unfold ofName? at found
    have named := List.find?_some found
    exact beq_iff_eq.mp named
  · rintro rfl
    cases variant <;> decide

theorem Variant.ofName?_eq_none {name : Text} :
    Variant.ofName? name = none ↔ name ≠ "mono".toList ∧ name ≠ "stereo".toList := by
  unfold ofName?
  rw [List.find?_eq_none]
  simp only [List.forall_mem_cons, beq_iff_eq, ne_comm (a := name)]
  exact and_congr_right fun _ => and_iff_left nofun

namespace CommandField

theorem index_lt_or_gt {field other : CommandField} (differ : field ≠ other) :
    field.index < other.index ∨ other.index < field.index := by
  revert differ
  cases field <;> cases other <;> decide

end CommandField

namespace ShaderCommand

/-- The field is there and not empty, and as a variant it is one of the two. -/
def Fits (fields : List Text) (field : CommandField) : Prop :=
  ∃ value, fields[field.index]? = some value ∧ value ≠ [] ∧
    (field = .variant → value = "mono".toList ∨ value = "stereo".toList)

/-- The fields are those of the command in their order, none of them empty, and after them its
libraries, among fields that may be empty. -/
def Spells (fields : List Text) (command : ShaderCommand) : Prop :=
  ∃ rest, fields = command.dialect :: command.variant.name.toList :: command.source.text ::
      command.outputBase.text :: rest ∧
    command.dialect ≠ [] ∧ command.source.text ≠ [] ∧ command.outputBase.text ≠ [] ∧
      command.libraries = rest.filter fun field => !field.isEmpty

/-- This is wrong with the first field that does not fit. -/
def Faults (fields : List Text) : CommandProblem → Prop
  | .missing field => (∀ value, fields[field.index]? = some value → value = []) ∧
    ∀ earlier : CommandField, earlier.index < field.index → Fits fields earlier
  | .unknownVariant name => Fits fields .dialect ∧
    fields[CommandField.variant.index]? = some name ∧ name ≠ [] ∧ name ≠ "mono".toList ∧
      name ≠ "stereo".toList

variable {fields : List Text} {field : CommandField} {value line : Text}
  {command other : ShaderCommand} {problem : CommandProblem} {number : Nat}
  {failure : CommandLineError}

theorem required_eq_ok : required fields field = .ok value ↔
    fields[field.index]? = some value ∧ value ≠ [] := by
  unfold required
  cases fields[field.index]? with
  | none => simp
  | some found =>
    cases found with
    | nil => simp +contextual [eq_comm]
    | cons first rest =>
      simp only [List.isEmpty_cons, Bool.false_eq_true, if_false, Except.ok.injEq, Option.some.injEq]
      exact ⟨fun same => ⟨same, same ▸ List.cons_ne_nil first rest⟩, And.left⟩

theorem required_eq_error : required fields field = .error problem ↔
    problem = .missing field ∧ ∀ value, fields[field.index]? = some value → value = [] := by
  unfold required
  cases fields[field.index]? with
  | none => simp [eq_comm]
  | some found => cases found <;> simp [eq_comm]

private theorem fits_of_required (found : required fields field = .ok value)
    (other : field ≠ .variant) : Fits fields field :=
  ⟨value, (required_eq_ok.mp found).1, (required_eq_ok.mp found).2, fun same => absurd same other⟩

/-- Fields spell a command when each of the four fits. -/
theorem spells_iff_fits : (∃ command, Spells fields command) ↔ ∀ field, Fits fields field := by
  constructor
  · rintro ⟨command, rest, rfl, dialect, source, output, -⟩ field
    cases field with
    | dialect => exact ⟨_, rfl, dialect, nofun⟩
    | variant =>
      refine ⟨_, rfl, ?_, fun _ => ?_⟩
      · cases command.variant <;> decide
      · cases command.variant <;> decide
    | source => exact ⟨_, rfl, source, nofun⟩
    | output => exact ⟨_, rfl, output, nofun⟩
  · intro fits
    obtain ⟨dialect, first, dialectSome, -⟩ := fits .dialect
    obtain ⟨name, second, -, named⟩ := fits .variant
    obtain ⟨source, third, sourceSome, -⟩ := fits .source
    obtain ⟨output, fourth, outputSome, -⟩ := fits .output
    obtain ⟨variant, rfl⟩ : ∃ variant : Variant, variant.name.toList = name := by
      rcases named rfl with rfl | rfl
      · exact ⟨.mono, rfl⟩
      · exact ⟨.stereo, rfl⟩
    match fields, first, second, third, fourth with
    | _ :: _ :: _ :: _ :: rest, rfl, rfl, rfl, rfl =>
      exact ⟨⟨dialect, variant, ⟨source⟩, ⟨output⟩, rest.filter fun field => !field.isEmpty⟩, rest,
        rfl, dialectSome, sourceSome, outputSome, rfl⟩

/-- Fields spell one command at most. -/
theorem Spells.unique (spells : Spells fields command) (again : Spells fields other) :
    other = command := by
  obtain ⟨rest, rfl, -, -, -, libraries⟩ := spells
  obtain ⟨restToo, same, -, -, -, librariesToo⟩ := again
  simp only [List.cons.injEq] at same
  obtain ⟨dialect, name, source, output, rfl⟩ := same
  have variant : some command.variant = some other.variant :=
    (Variant.ofName?_eq_some.mpr rfl).symm.trans (Variant.ofName?_eq_some.mpr name.symm)
  cases command with
  | mk _ _ firstSource firstOutput _ =>
    cases other with
    | mk _ _ secondSource secondOutput _ =>
      cases firstSource; cases firstOutput; cases secondSource; cases secondOutput
      simp_all

theorem Faults.not_spells (faults : Faults fields problem) : ¬ Spells fields command := by
  intro spells
  have fits := spells_iff_fits.mp ⟨command, spells⟩
  cases problem with
  | missing field =>
    obtain ⟨value, there, some, -⟩ := fits field
    exact some (faults.1 value there)
  | unknownVariant name =>
    obtain ⟨-, found, -, mono, stereo⟩ := faults
    obtain ⟨value, there, -, known⟩ := fits .variant
    obtain rfl := Option.some.inj (found.symm.trans there)
    exact (known rfl).elim mono stereo

private theorem Faults.not_fits (faults : Faults fields (.missing field)) : ¬ Fits fields field := by
  rintro ⟨value, there, some, -⟩
  exact some (faults.1 value there)

/-- There is one thing wrong first. -/
theorem Faults.unique {second : CommandProblem} (faults : Faults fields problem)
    (again : Faults fields second) : second = problem := by
  have apart {field : CommandField} {name : Text} (missing : Faults fields (.missing field))
      (unknown : Faults fields (.unknownVariant name)) : False := by
    obtain ⟨dialect, found, some, mono, stereo⟩ := unknown
    cases field with
    | dialect => exact missing.not_fits dialect
    | variant => exact some (missing.1 name found)
    | source | output =>
      obtain ⟨value, there, -, known⟩ := missing.2 .variant (by decide)
      obtain rfl := Option.some.inj (found.symm.trans there)
      exact (known rfl).elim mono stereo
  cases problem with
  | missing field =>
    cases second with
    | missing other =>
      by_cases same : other = field
      · rw [same]
      rcases CommandField.index_lt_or_gt same with before | before
      · exact absurd (faults.2 other before) again.not_fits
      · exact absurd (again.2 field before) faults.not_fits
    | unknownVariant name => exact (apart faults again).elim
  | unknownVariant name =>
    cases second with
    | missing other => exact (apart again faults).elim
    | unknownVariant other =>
      rw [Option.some.inj (faults.2.1.symm.trans again.2.1)]

private theorem faults_of_required (missing : required fields field = .error problem)
    (fits : ∀ earlier : CommandField, earlier.index < field.index → Fits fields earlier) :
    Faults fields problem := by
  obtain ⟨rfl, absent⟩ := required_eq_error.mp missing
  exact ⟨absent, fits⟩

private theorem ofFields_spec (fields : List Text) :
    (∃ command, ofFields fields = .ok command ∧ Spells fields command) ∨
      ∃ problem, ofFields fields = .error problem ∧ Faults fields problem := by
  -- The fields are read in order, so those before the first that is wrong fit.
  unfold ofFields
  cases first : required fields .dialect with
  | error problem =>
    refine .inr ⟨_, rfl, faults_of_required first fun earlier before => ?_⟩
    exact absurd before (Nat.not_lt_zero _)
  | ok dialect =>
  have dialectFits := fits_of_required first nofun
  cases second : required fields .variant with
  | error problem =>
    refine .inr ⟨_, rfl, faults_of_required second fun earlier before => ?_⟩
    cases earlier with
    | dialect => exact dialectFits
    | _ => exact absurd before (by decide)
  | ok name =>
  obtain ⟨there, some⟩ := required_eq_ok.mp second
  dsimp only [bind, Except.bind]
  cases named : Variant.ofName? name with
  | none =>
    obtain ⟨mono, stereo⟩ := Variant.ofName?_eq_none.mp named
    exact .inr ⟨_, rfl, dialectFits, there, some, mono, stereo⟩
  | some variant =>
  obtain rfl := Variant.ofName?_eq_some.mp named
  have variantFits : Fits fields .variant :=
    ⟨_, there, some, fun _ => by cases variant <;> decide⟩
  cases third : required fields .source with
  | error problem =>
    refine .inr ⟨_, rfl, faults_of_required third fun earlier before => ?_⟩
    cases earlier with
    | dialect => exact dialectFits
    | variant => exact variantFits
    | _ => exact absurd before (by decide)
  | ok source =>
  have sourceFits := fits_of_required third nofun
  cases fourth : required fields .output with
  | error problem =>
    refine .inr ⟨_, rfl, faults_of_required fourth fun earlier before => ?_⟩
    cases earlier with
    | dialect => exact dialectFits
    | variant => exact variantFits
    | source => exact sourceFits
    | output => exact absurd before (by decide)
  | ok output =>
  obtain ⟨dialectThere, dialectSome⟩ := required_eq_ok.mp first
  obtain ⟨sourceThere, sourceSome⟩ := required_eq_ok.mp third
  obtain ⟨outputThere, outputSome⟩ := required_eq_ok.mp fourth
  match fields, dialectThere, there, sourceThere, outputThere with
  | _ :: _ :: _ :: _ :: rest, rfl, rfl, rfl, rfl =>
    exact .inl ⟨_, rfl, rest, rfl, dialectSome, sourceSome, outputSome, rfl⟩

theorem ofFields_eq_ok : ofFields fields = .ok command ↔ Spells fields command := by
  rcases ofFields_spec fields with ⟨other, read, spells⟩ | ⟨problem, read, faults⟩
  · rw [read, Except.ok.injEq]
    exact ⟨fun same => same ▸ spells, fun again => (again.unique spells)⟩
  · rw [read]
    exact ⟨nofun, fun spells => absurd spells faults.not_spells⟩

theorem ofFields_eq_error : ofFields fields = .error problem ↔ Faults fields problem := by
  rcases ofFields_spec fields with ⟨command, read, spells⟩ | ⟨other, read, faults⟩
  · rw [read]
    exact ⟨nofun, fun faults => absurd spells faults.not_spells⟩
  · rw [read, Except.error.injEq]
    exact ⟨fun same => same ▸ faults, fun again => again.unique faults⟩

theorem parse_eq_ok : parse line number = .ok command ↔ Spells (ShaderCommand.fields line) command := by
  rw [← ofFields_eq_ok, parse]
  cases ofFields (ShaderCommand.fields line) <;> simp

theorem parse_eq_error : parse line number = .error failure ↔
    failure.number = number ∧ failure.line = line ∧ Faults (ShaderCommand.fields line) failure.problem := by
  rw [← ofFields_eq_error, parse]
  obtain ⟨place, own, problem⟩ := failure
  cases ofFields (ShaderCommand.fields line) <;> simp [eq_comm]

end ShaderCommand

end ShaderBuild
