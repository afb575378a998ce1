import ShaderBuild.Instant
import ShaderBuild.Text.Blank
/-!
Log levels, log entries, and computations that leave a log. The log never changes what a computation
returns.
-/
namespace ShaderBuild

namespace Log

/-- How much is logged; `off` is the level of no entry. -/
inductive Level where
  | off
  | error
  | warn
  | info
  | debug
  | trace
  deriving DecidableEq, Repr

namespace Level

def rank : Level → Nat
  | .off => 0
  | .error => 1
  | .warn => 2
  | .info => 3
  | .debug => 4
  | .trace => 5

def name : Level → String
  | .off => "OFF"
  | .error => "ERROR"
  | .warn => "WARN"
  | .info => "INFO"
  | .debug => "DEBUG"
  | .trace => "TRACE"

def all : List Level :=
  [.off, .error, .warn, .info, .debug, .trace]

/-- Reads a level name in any mix of ASCII cases, with white space around it. -/
def parse? (text : Text) : Option Level :=
  all.find? fun level => level.name.toList == (Text.trim text).map Char.toUpper

/-- The level of exactly that name in lower case. -/
def ofName? (name : Text) : Option Level :=
  all.find? fun level => level.name.toList.map Char.toLower == name

/-- The first level that is given and can be read: that of the command line, of the environment, of
the configuration; without any, `info`. -/
def choose (commandLine : Option Level) (environment configured : Option Text) : Level :=
  ((commandLine.or (environment.bind parse?)).or (configured.bind parse?)).getD .info

end Level

/-- The part of the program that an entry comes from. -/
inductive Origin where
  | scanner
  | expansion
  | expandCommand
  | buildCommand
  | commandList
  | configuration
  | dependencyCache
  | orchestration
  | toolchain
  deriving DecidableEq, Repr

/-- The name under which a part of the program logs. -/
def Origin.label : Origin → String
  | .scanner => "shadergen_scribe::directive"
  | .expansion => "shadergen_scribe::preprocessor"
  | .expandCommand => "shadergen_scribe::cli"
  | .buildCommand => "shadergen"
  | .commandList => "shadergen::command"
  | .configuration => "shadergen::config"
  | .dependencyCache => "shadergen::dep_cache"
  | .orchestration => "shadergen::orchestrator"
  | .toolchain => "shadergen::toolchain"

structure Entry where
  level : Level
  origin : Origin
  message : String
  deriving DecidableEq, Repr

/-- The entry as it is written: the level is filled up to five characters. -/
def Entry.line (entry : Entry) : String :=
  let level := entry.level.name
  "[" ++ level ++ "".pushn ' ' (5 - level.length) ++ "] [" ++ entry.origin.label ++ "] "
    ++ entry.message

/-- The lines of the entries that `level` lets through. -/
def linesAt (level : Level) (entries : List Entry) : List String :=
  (entries.filter fun entry => entry.level.rank ≤ level.rank).map Entry.line

/-- The entries that `level` lets through as they are written at a time, one line each. -/
def text (level : Level) (time : Instant) (entries : List Entry) : Text :=
  (linesAt level entries).flatMap fun line => s!"[{time.stamp}] {line}\n".toList

end Log

/-- A value and the log that its computation left. -/
structure Logged (α : Type) where
  value : α
  log : List Log.Entry

namespace Logged

protected def pure {α : Type} (value : α) : Logged α :=
  ⟨value, []⟩

protected def bind {α β : Type} (first : Logged α) (next : α → Logged β) : Logged β :=
  let second := next first.value
  ⟨second.value, first.log ++ second.log⟩

instance : Monad Logged where
  pure := Logged.pure
  bind := Logged.bind

/-- Leaves one entry. -/
def note (level : Log.Level) (origin : Log.Origin) (message : String) : Logged Unit :=
  ⟨(), [⟨level, origin, message⟩]⟩

@[simp] theorem value_pure {α : Type} (value : α) : (pure value : Logged α).value = value := rfl

@[simp] theorem log_pure {α : Type} (value : α) : (pure value : Logged α).log = [] := rfl

@[simp] theorem value_map {α β : Type} (apply : α → β) (first : Logged α) :
    (apply <$> first).value = apply first.value := rfl

/-- What a computation returns depends on returned values alone. -/
@[simp] theorem value_bind {α β : Type} (first : Logged α) (next : α → Logged β) :
    (first >>= next).value = (next first.value).value := rfl

@[simp] theorem log_bind {α β : Type} (first : Logged α) (next : α → Logged β) :
    (first >>= next).log = first.log ++ (next first.value).log := rfl

instance : LawfulMonad Logged :=
  LawfulMonad.mk' Logged
    (fun first => congrArg (Logged.mk first.value) (List.append_nil first.log))
    (fun _ _ => rfl)
    (fun first next last => congrArg (Logged.mk _) (List.append_assoc first.log _ _))

end Logged

end ShaderBuild
