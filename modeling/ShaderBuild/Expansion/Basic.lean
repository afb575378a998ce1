import ShaderBuild.Expansion.Error
import ShaderBuild.FileSystem.Access
import ShaderBuild.Log
/-!
Computations of an expansion. A pass works on a text alone. An expansion also reads files, and has
left its log so far before each read: the file that it reads may be the one that keeps the log.
Reading from files that stay as they are, an expansion is a pass: `run_bind` says that one runs its
parts in turn.
-/
namespace ShaderBuild

/-- A pass over a text: it may fail, and it leaves a log either way. -/
abbrev TextPass := ExceptT ExpansionError Logged

def TextPass.ofExcept {α : Type} (result : Except ExpansionError α) : TextPass α :=
  ExceptT.mk (pure result)

/-- What an expansion does next, after the log entries that it leaves first. -/
inductive Expanding (α : Type) where
  | ended (log : List Log.Entry) (result : Except ExpansionError α)
  /-- Reads the file at `path` and goes on with what comes of it. -/
  | reading (log : List Log.Entry) (path : Path) (next : Except FileError Text → Expanding α)

namespace Expanding

/-- The expansion with log entries in front of its own. -/
def after {α : Type} (entries : List Log.Entry) : Expanding α → Expanding α
  | .ended log result => .ended (entries ++ log) result
  | .reading log path next => .reading (entries ++ log) path next

protected def pure {α : Type} (value : α) : Expanding α :=
  .ended [] (.ok value)

protected def bind {α β : Type} (first : Expanding α) (next : α → Expanding β) : Expanding β :=
  match first with
  | .ended log (.ok value) => (next value).after log
  | .ended log (.error problem) => .ended log (.error problem)
  | .reading log path answer => .reading log path fun result => (answer result).bind next

instance : Monad Expanding where
  pure := Expanding.pure
  bind := Expanding.bind

def ofExcept {α : Type} (result : Except ExpansionError α) : Expanding α :=
  .ended [] result

/-- A pass reads no file. -/
def ofPass {α : Type} (pass : TextPass α) : Expanding α :=
  .ended pass.run.log pass.run.value

instance : MonadLift TextPass Expanding where
  monadLift := ofPass

/-- Leaves a log entry. -/
def note (level : Log.Level) (origin : Log.Origin) (message : String) : Expanding Unit :=
  .ended [⟨level, origin, message⟩] (.ok ())

/-- Reads the text of a file; without it the expansion fails. -/
def readText (path : Path) : Expanding Text :=
  .reading [] path fun result => ofExcept (result.mapError (.unreadable path))

/-- The outcome and the log, every file being read from `files`. -/
def run {α : Type} (files : FileSystem) : Expanding α → Logged (Except ExpansionError α)
  | .ended log result => ⟨result, log⟩
  | .reading log path next =>
    let rest := (next (files.readText path)).run files
    ⟨rest.value, log ++ rest.log⟩

@[simp] theorem after_nil {α : Type} (expansion : Expanding α) :
    expansion.after [] = expansion := by
  cases expansion <;> rfl

theorem after_after {α : Type} (first second : List Log.Entry) (expansion : Expanding α) :
    (expansion.after second).after first = expansion.after (first ++ second) := by
  cases expansion <;> simp [after]

theorem bind_after {α β : Type} (log : List Log.Entry) (first : Expanding α)
    (next : α → Expanding β) : (first.after log).bind next = (first.bind next).after log := by
  cases first with
  | ended own result =>
    cases result with
    | ok value => exact (after_after log own (next value)).symm
    | error problem => rfl
  | reading own path answer => rfl

protected theorem bind_pure {α : Type} (expansion : Expanding α) :
    expansion.bind Expanding.pure = expansion := by
  induction expansion with
  | ended log result => cases result <;> simp [Expanding.bind, Expanding.pure, after]
  | reading log path answer ih => simp [Expanding.bind, ih]

protected theorem bind_assoc {α β γ : Type} (first : Expanding α) (next : α → Expanding β)
    (last : β → Expanding γ) :
    (first.bind next).bind last = first.bind fun value => (next value).bind last := by
  induction first with
  | ended log result =>
    cases result with
    | ok value => exact bind_after log (next value) last
    | error problem => rfl
  | reading log path answer ih => simp [Expanding.bind, ih]

instance : LawfulMonad Expanding :=
  LawfulMonad.mk' Expanding Expanding.bind_pure (fun value next => after_nil (next value))
    Expanding.bind_assoc

@[simp] theorem run_pure {α : Type} (files : FileSystem) (value : α) :
    (pure value : Expanding α).run files = pure (.ok value) := rfl

@[simp] theorem run_ofExcept {α : Type} (files : FileSystem) (result : Except ExpansionError α) :
    (ofExcept result).run files = pure result := rfl

@[simp] theorem run_ofPass {α : Type} (files : FileSystem) (pass : TextPass α) :
    (ofPass pass).run files = pass.run := rfl

@[simp] theorem run_readText (files : FileSystem) (path : Path) :
    (readText path).run files = pure ((files.readText path).mapError (.unreadable path)) := rfl

theorem run_after {α : Type} (files : FileSystem) (log : List Log.Entry)
    (expansion : Expanding α) :
    (expansion.after log).run files =
      ⟨(expansion.run files).value, log ++ (expansion.run files).log⟩ := by
  cases expansion <;> simp [after, run]

/-- An expansion that fails does nothing more; otherwise what comes next adds to its log. -/
theorem run_bind {α β : Type} (files : FileSystem) (first : Expanding α)
    (next : α → Expanding β) :
    (first >>= next).run files = first.run files >>= fun
      | .ok value => (next value).run files
      | .error problem => pure (.error problem) := by
  induction first with
  | ended log result =>
    cases result with
    | ok value => exact run_after files log (next value)
    | error problem => simp [Bind.bind, Expanding.bind, run, Logged.bind, Pure.pure, Logged.pure]
  | reading log path answer ih =>
    have rest := ih (files.readText path)
    simp only [Bind.bind, Expanding.bind, run, Logged.bind] at rest ⊢
    simp [rest]

end Expanding

/-- Notes an opener without a closer. -/
def Scan.noteStray (offset : Nat) : Logged Unit :=
  Logged.note .trace .scanner s!"Unterminated marker at byte {offset}"

/-- Notes the piece if it is an opener without a closer. -/
def Piece.notice : Piece → Logged Unit
  | .stray offset => Scan.noteStray offset
  | _ => pure ()

end ShaderBuild
