import ShaderBuild.Proofs.Command.Line
import ShaderBuild.Proofs.Text.Lines
import Mathlib.Data.List.Forall2
/-!
Command lists. A text is a list when each line that is neither blank nor a comment spells a command;
otherwise the first line that spells none is what is wrong with it. Lists written out are read back.
-/
namespace ShaderBuild.ShaderCommand

open Text (Trimmed joinWith)

/-- The line is blank or a comment. -/
def Skips (line : Text) : Prop :=
  Text.trim line = [] ∨ (Text.trim line).head? = some '#'

instance : DecidablePred Skips :=
  fun _ => inferInstanceAs (Decidable (_ ∨ _))

/-- The lines that have to spell commands. -/
def commandLines (lines : List Text) : List Text :=
  lines.filter fun line => ¬ Skips line

/-- The failure is that of the first line that has to spell a command and does not, with its number;
the lines are numbered from `first` on. -/
def FirstFault (first : Nat) (lines : List Text) (failure : CommandLineError) : Prop :=
  ∃ before behind, lines = before ++ failure.line :: behind ∧
    failure.number = first + before.length ∧
    (∀ line ∈ before, Skips line ∨ ∀ field, Fits (fields line) field) ∧
    ¬ Skips failure.line ∧ Faults (fields failure.line) failure.problem

variable {line text : Text} {rest lines : List Text} {number first : Nat} {command : ShaderCommand}
  {commands : List ShaderCommand} {failure : CommandLineError}

/-! ### Reading -/

theorem isCommandLine_iff : isCommandLine line = true ↔ ¬ Skips line := by
  simp [isCommandLine, Skips]

/-- Reads lines that are numbered from `first` on. -/
private def parseLines (first : Nat) (lines : List Text) :
    Except CommandLineError (List ShaderCommand) :=
  ((lines.zipIdx first).filter fun numbered => isCommandLine numbered.1).mapM
    fun numbered => parse numbered.1 numbered.2

private theorem parseLines_skip (skips : Skips line) :
    parseLines first (line :: rest) = parseLines (first + 1) rest := by
  have idle : ¬ isCommandLine line = true := fun named => isCommandLine_iff.mp named skips
  rw [parseLines, List.zipIdx_cons, List.filter_cons, if_neg idle, parseLines]

private theorem parseLines_line (named : ¬ Skips line) :
    parseLines first (line :: rest) = (parse line first).bind fun command =>
      (parseLines (first + 1) rest).map (command :: ·) := by
  rw [parseLines, List.zipIdx_cons, List.filter_cons, if_pos (isCommandLine_iff.mpr named),
    List.mapM_cons]
  cases parse line first with
  | error problem => rfl
  | ok command =>
    dsimp only [bind, Except.bind]
    rw [← parseLines]
    cases parseLines (first + 1) rest <;> rfl

private theorem commandLines_skip (skips : Skips line) :
    commandLines (line :: rest) = commandLines rest :=
  List.filter_cons_of_neg (by simpa using skips)

private theorem commandLines_line (named : ¬ Skips line) :
    commandLines (line :: rest) = line :: commandLines rest :=
  List.filter_cons_of_pos (by simpa using named)

private theorem parseLines_eq_ok : parseLines first lines = .ok commands ↔
    List.Forall₂ (fun line command => Spells (fields line) command) (commandLines lines) commands := by
  induction lines generalizing first commands with
  | nil => simp [parseLines, commandLines, pure, Except.pure, eq_comm]
  | cons line rest ih =>
    by_cases skips : Skips line
    · rw [parseLines_skip skips, ih, commandLines_skip skips]
    have reads := fun command => @parse_eq_ok line command first
    have later := fun commands => @ih (first + 1) commands
    rw [parseLines_line skips, commandLines_line skips, List.forall₂_cons_left_iff]
    simp only [← reads]
    cases parse line first with
    | error problem => simp [Except.bind]
    | ok own =>
      cases read : parseLines (first + 1) rest with
      | error problem => simp [Except.bind, Except.map, ← later, read]
      | ok others => simp [Except.bind, Except.map, ← later, read, eq_comm]

private theorem firstFault_cons : FirstFault first (line :: rest) failure ↔
    (failure.number = first ∧ failure.line = line ∧ ¬ Skips line ∧
      Faults (fields line) failure.problem) ∨
    ((Skips line ∨ ∀ field, Fits (fields line) field) ∧ FirstFault (first + 1) rest failure) := by
  constructor
  · rintro ⟨before, behind, whole, number, passed, named, faults⟩
    cases before with
    | nil =>
      obtain ⟨rfl, rfl⟩ := List.cons.inj whole
      exact .inl ⟨number, rfl, named, faults⟩
    | cons own before =>
      obtain ⟨rfl, rfl⟩ := List.cons.inj whole
      obtain ⟨here, later⟩ := List.forall_mem_cons.mp passed
      rw [List.length_cons] at number
      exact .inr ⟨here, before, behind, rfl, by omega, later, named, faults⟩
  · rintro (⟨number, rfl, named, faults⟩ | ⟨here, before, behind, rfl, number, later, named, faults⟩)
    · exact ⟨[], rest, rfl, number, nofun, named, faults⟩
    · refine ⟨line :: before, behind, rfl, ?_, List.forall_mem_cons.mpr ⟨here, later⟩, named, faults⟩
      rw [List.length_cons]
      omega

private theorem parseLines_eq_error :
    parseLines first lines = .error failure ↔ FirstFault first lines failure := by
  induction lines generalizing first with
  | nil =>
    refine ⟨nofun, ?_⟩
    rintro ⟨before, behind, whole, -⟩
    simp at whole
  | cons line rest ih =>
    rw [firstFault_cons, ← ih]
    by_cases skips : Skips line
    · simp [parseLines_skip skips, skips]
    have reads : (∀ field, Fits (fields line) field) ↔ ∃ command, parse line first = .ok command := by
      simp only [← spells_iff_fits, parse_eq_ok]
    have fails := @parse_eq_error line first failure
    rw [parseLines_line skips, reads]
    cases read : parse line first with
    | error problem =>
      rw [read, Except.error.injEq] at fails
      simp [Except.bind, skips, fails]
    | ok command =>
      rw [read] at fails
      cases parseLines (first + 1) rest <;> simp [Except.bind, Except.map, skips, ← fails]

/-! ### Writing and reading again -/

/-- What is written of a command: its fields, the libraries last. -/
def parts (command : ShaderCommand) : List Text :=
  command.dialect :: command.variant.name.toList :: command.source.text :: command.outputBase.text ::
    command.libraries

/-- The line of a command. -/
def print (command : ShaderCommand) : Text :=
  joinWith [';'] command.parts

/-- One line for each command. -/
def printList (commands : List ShaderCommand) : Text :=
  joinWith ['\n'] (commands.map print)

/-- Nothing in the command would be taken for a separator, a comment or white space around a field. -/
structure Printable (command : ShaderCommand) : Prop where
  trimmed : ∀ part ∈ command.parts, Trimmed part
  whole : ∀ part ∈ command.parts, ';' ∉ part
  inLine : ∀ part ∈ command.parts, '\n' ∉ part
  named : command.dialect.head? ≠ some '#'

private theorem mem_fields {part : Text} (inLine : '\n' ∉ line) (member : part ∈ fields line)
    (some : part ≠ []) : Trimmed part ∧ ';' ∉ part ∧ '\n' ∉ part := by
  obtain ⟨piece, cut, rfl⟩ := List.mem_map.mp member
  refine ⟨Text.trimmed_trim some, fun semicolon => ?_, fun feed => ?_⟩
  · exact Text.not_mem_of_mem_splitOn cut (Text.mem_of_mem_trim semicolon)
  · have inside := Text.mem_of_mem_splitOn cut (Text.mem_of_mem_trim feed)
    exact inLine (Text.mem_of_mem_trim inside)

private theorem head?_first_field {others : List Text} (cut : fields line = text :: others)
    (some : text ≠ []) : text.head? = (Text.trim line).head? := by
  obtain ⟨piece, pieces, split, rfl, -⟩ := List.map_eq_cons_iff.mp cut
  obtain ⟨c, rest, rfl⟩ : ∃ c rest, piece = c :: rest := by
    refine List.exists_cons_of_ne_nil fun none => some ?_
    rw [none]
    rfl
  have whole := Text.joinWith_splitOn ';' (Text.trim line)
  have begins : (Text.trim line).head? = (c :: rest).head? := by
    rw [← whole, split]
    cases pieces <;> simp [joinWith, List.intercalate_cons_cons]
  rw [begins]
  refine Text.head?_trim (fun own first => ?_) some
  rw [← begins] at first
  exact (Text.trim_eq_self_iff.mp (Text.trim_trim line)).1 own first

private theorem Spells.mem_parts {cut : List Text} {part : Text} (spells : Spells cut command)
    (member : part ∈ command.parts) : part ∈ cut ∧ part ≠ [] := by
  obtain ⟨rest, rfl, dialect, source, output, libraries⟩ := spells
  have variant : command.variant.name.toList ≠ [] := by cases command.variant <;> decide
  rw [parts, libraries] at member
  simp only [List.mem_cons, List.mem_filter] at member ⊢
  obtain rfl | rfl | rfl | rfl | ⟨listed, some⟩ := member
  · exact ⟨by simp, dialect⟩
  · exact ⟨by simp, variant⟩
  · exact ⟨by simp, source⟩
  · exact ⟨by simp, output⟩
  · exact ⟨by simp [listed], by simpa using some⟩

private theorem Spells.printable (spells : Spells (fields line) command) (named : ¬ Skips line)
    (inLine : '\n' ∉ line) : command.Printable := by
  have each : ∀ part ∈ command.parts, Trimmed part ∧ ';' ∉ part ∧ '\n' ∉ part := fun part member =>
    mem_fields inLine (spells.mem_parts member).1 (spells.mem_parts member).2
  refine ⟨fun part member => (each part member).1, fun part member => (each part member).2.1,
    fun part member => (each part member).2.2, fun comment => ?_⟩
  obtain ⟨rest, cut, some, -⟩ := spells
  rw [head?_first_field cut some] at comment
  exact named (.inr comment)

namespace Printable

theorem trimmed_print (printable : command.Printable) : Trimmed command.print :=
  Text.trimmed_joinWith _ nofun printable.trimmed

theorem fields_print (printable : command.Printable) : fields command.print = command.parts := by
  have some : command.parts ≠ [] := nofun
  rw [fields, printable.trimmed_print.2, print, Text.splitOn_joinWith some printable.whole]
  rw [List.map_congr_left fun part member => (printable.trimmed part member).2, List.map_id']

theorem spells_print (printable : command.Printable) : Spells (fields command.print) command := by
  rw [printable.fields_print]
  have some : ∀ part ∈ command.parts, part ≠ [] := fun part member => (printable.trimmed part member).1
  refine ⟨command.libraries, rfl, some _ (by simp [parts]), some _ (by simp [parts]),
    some _ (by simp [parts]), (List.filter_eq_self.mpr fun library member => ?_).symm⟩
  simpa using some library (by simp [parts, member])

theorem not_skips_print (printable : command.Printable) : ¬ Skips command.print := by
  have same := printable.trimmed_print
  have first := head?_first_field printable.fields_print (printable.trimmed _ List.mem_cons_self).1
  rintro (blank | comment)
  · exact same.1 (same.2.symm.trans blank)
  · exact printable.named (first.trans comment)

theorem inLine_print (printable : command.Printable) : '\n' ∉ command.print :=
  Text.not_mem_joinWith (by decide) printable.inLine

end Printable

private theorem commandLines_printList (printable : ∀ command ∈ commands, Printable command) :
    commandLines (Text.lines (printList commands)) = commands.map print := by
  rw [printList, Text.lines_joinWith, commandLines, List.filter_eq_self]
  · simpa using fun command member => (printable command member).not_skips_print
  · simpa using fun command member => (printable command member).trimmed_print
  · simpa using fun command member => (printable command member).inLine_print

theorem parseList_eq_ok : parseList text = .ok commands ↔
    List.Forall₂ (fun line command => Spells (fields line) command) (commandLines (Text.lines text))
      commands :=
  parseLines_eq_ok

theorem parseList_eq_error :
    parseList text = .error failure ↔ FirstFault 1 (Text.lines text) failure :=
  parseLines_eq_error

theorem parseList_printList (printable : ∀ command ∈ commands, Printable command) :
    parseList (printList commands) = .ok commands := by
  rw [parseList_eq_ok, commandLines_printList printable, List.forall₂_map_left_iff, List.forall₂_same]
  exact fun command member => (printable command member).spells_print

theorem printable_of_parseList (read : parseList text = .ok commands) :
    ∀ command ∈ commands, Printable command := by
  have named : ∀ line ∈ commandLines (Text.lines text), ¬ Skips line ∧ '\n' ∉ line :=
    fun line member => ⟨by simpa using (List.mem_filter.mp member).2,
      Text.feed_not_mem_lines (List.mem_filter.mp member).1⟩
  have spelled := parseList_eq_ok.mp read
  clear read
  generalize commandLines (Text.lines text) = lines at named spelled
  induction spelled with
  | nil => nofun
  | @cons line command lines commands spells _ ih =>
    obtain ⟨here, later⟩ := List.forall_mem_cons.mp named
    exact List.forall_mem_cons.mpr ⟨spells.printable here.1 here.2, ih later⟩

/-- A text is read as a list when the four fields of each line that has to spell a command are there;
it is read as what these lines spell, one command for each of them in their order, and otherwise the
first line that spells none is reported. The commands that were read are read again from what is
written of them. -/
theorem parseList_reads (text : Text) :
    ((∃ commands, parseList text = .ok commands) ↔
      ∀ line ∈ commandLines (Text.lines text), ∀ field, Fits (fields line) field) ∧
    (∀ commands, parseList text = .ok commands ↔
      List.Forall₂ (fun line command => Spells (fields line) command)
        (commandLines (Text.lines text)) commands) ∧
    (∀ failure, parseList text = .error failure ↔ FirstFault 1 (Text.lines text) failure) ∧
    ∀ commands, parseList text = .ok commands → parseList (printList commands) = .ok commands := by
  refine ⟨?_, fun commands => parseList_eq_ok, fun failure => parseList_eq_error,
    fun commands read => parseList_printList (printable_of_parseList read)⟩
  simp only [parseList_eq_ok]
  generalize commandLines (Text.lines text) = lines
  constructor
  · rintro ⟨commands, spelled⟩
    induction spelled with
    | nil => nofun
    | @cons line command _ _ spells _ ih =>
      exact List.forall_mem_cons.mpr ⟨spells_iff_fits.mp ⟨command, spells⟩, ih⟩
  · intro fits
    induction lines with
    | nil => exact ⟨[], .nil⟩
    | cons line lines ih =>
      obtain ⟨here, later⟩ := List.forall_mem_cons.mp fits
      obtain ⟨command, spells⟩ := spells_iff_fits.mpr here
      obtain ⟨commands, spelled⟩ := ih later
      exact ⟨command :: commands, .cons spells spelled⟩

example : parseList "# all\r\n\n410 ; mono;a.slv;a;;gpu;\n410;both;b.slv;b".toList =
      .error ⟨4, "410;both;b.slv;b".toList, .unknownVariant "both".toList⟩ ∧
    (parseList "# all\r\n\n410 ; mono;a.slv;a;;gpu;\r\n".toList).map printList =
      .ok "410;mono;a.slv;a;gpu".toList := by
  decide +kernel

end ShaderBuild.ShaderCommand
