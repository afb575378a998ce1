import ShaderBuild.Text.Lines
import ShaderBuild.Text.Number
/-!
Reading command lines. Switches have long names and letters; some take values, which follow as
arguments of their own or joined to the name. An argument that begins with a hyphen is never a
value. A switch is only looked at as a whole, values and all, when the next one starts or the line
ends.
-/
namespace ShaderBuild.CommandLine

/-- What is wrong with a command line. -/
inductive Misuse where
  | unknownArgument
  /-- A value is missing, or it is none of those that the switch accepts. -/
  | invalidValue
  /-- A value cannot be read. -/
  | unreadableValue
  /-- A switch that may be given once is given again. -/
  | repeated
  /-- A switch needs another one. -/
  | missingArgument
  | wrongNumberOfValues
  /-- A value is joined to a switch that takes none. -/
  | unwantedValue
  deriving DecidableEq, Repr

def Misuse.message : Misuse → String
  | .unknownArgument => "unexpected argument"
  | .invalidValue => "invalid value"
  | .unreadableValue => "a value cannot be read"
  | .repeated => "an option is used more than once"
  | .missingArgument => "a required option is missing"
  | .wrongNumberOfValues => "wrong number of values"
  | .unwantedValue => "unexpected value"

/-- Why a command line gives no options. -/
inductive Halt where
  | help
  | version
  | misuse (problem : Misuse)
  deriving DecidableEq, Repr

/-- One switch, and how its values change the options. -/
structure Switch (Options : Type) where
  names : List String
  letter : Option Char
  /-- How many values it takes each time. -/
  valueCount : Nat
  /-- It may be given more than once. -/
  repeatable : Bool
  accept : List Text → Options → Except Halt Options

namespace Switch

variable {Options α : Type}

/-- A switch without values. -/
def flag (name : String) (letter : Option Char) (set : Options → Options) : Switch Options :=
  ⟨[name], letter, 0, false, fun _ options => .ok (set options)⟩

/-- Reads exactly one value. -/
def acceptOne (read : Text → Except Misuse α) (set : α → Options → Options) (values : List Text)
    (options : Options) : Except Halt Options :=
  match values with
  | [value] =>
    match read value with
    | .ok value => .ok (set value options)
    | .error problem => .error (.misuse problem)
  | _ => .error (.misuse .wrongNumberOfValues)

/-- A switch with one value. -/
def single (name : String) (letter : Option Char) (read : Text → Except Misuse α)
    (set : α → Options → Options) : Switch Options :=
  ⟨[name], letter, 1, false, acceptOne read set⟩

/-- The same switch, which may be given more than once. -/
def again (switch : Switch Options) : Switch Options :=
  { switch with repeatable := true }

/-- The same switch, which has a second name. -/
def orNamed (switch : Switch Options) (name : String) : Switch Options :=
  { switch with names := switch.names ++ [name] }

/-- The switches that every command line has. -/
def common : List (Switch Options) :=
  [⟨["help"], some 'h', 0, false, fun _ _ => .error .help⟩,
    ⟨["version"], some 'V', 0, false, fun _ _ => .error .version⟩]

/-- The switch as a help text shows it. -/
def synopsis (switch : Switch Options) : String :=
  let letter :=
    match switch.letter with
    | some letter => s!"-{letter}, "
    | none => "    "
  let names := switch.names.take 1 |>.map fun name => s!"--{name}"
  "  " ++ letter ++ " ".intercalate (names ++ List.replicate switch.valueCount "<VALUE>")

end Switch

/-! Values -/

/-- Any value but the empty one is a path. -/
def readPath (value : Text) : Except Misuse Text :=
  if value.isEmpty then .error .invalidValue else .ok value

def readAny (value : Text) : Except Misuse Text :=
  .ok value

/-- One of a fixed set of values. -/
def readChoice {α : Type} (find : Text → Option α) (value : Text) : Except Misuse α :=
  match find value with
  | some choice => .ok choice
  | none => .error .invalidValue

/-- A decimal number below 2⁶⁴, with or without a plus sign. -/
def readNumber (value : Text) : Except Misuse Nat :=
  match Text.word? (Text.digits? 10 (Text.dropPlus value)) with
  | some number => .ok number
  | none => .error .unreadableValue

/-! Arguments -/

/-- What an argument looks like. -/
inductive Argument where
  /-- No switch follows any more. -/
  | escape
  | long (name : Text) (value : Option Text)
  /-- Letters of switches; what follows the letter of one with values is its value. -/
  | letters (text : Text)
  | value (text : Text)
  deriving DecidableEq, Repr

/-- The text before the first `=`, and what follows it. -/
def cutAtEquals (text : Text) : Text × Option Text :=
  match text.dropWhile (· != '=') with
  | [] => (text, none)
  | _ :: value => (text.takeWhile (· != '='), some value)

def Argument.ofText : Text → Argument
  | ['-', '-'] => .escape
  | '-' :: '-' :: rest => .long (cutAtEquals rest).1 (cutAtEquals rest).2
  | '-' :: c :: rest => .letters (c :: rest)
  | text => .value text

/-- A switch whose values are still being read. -/
structure Pending (Options : Type) where
  switch : Switch Options
  values : List Text

/-- The options read so far. -/
structure Reader (Options : Type) where
  options : Options
  /-- The names of the switches met. -/
  given : List (List String)
  pending : Option (Pending Options)
  /-- No switch follows any more. -/
  escaped : Bool

namespace Reader

variable {Options : Type}

/-- Takes a switch over with all its values: their number is checked first, then that the switch is
not there for a second time, then what they say. -/
def take (reader : Reader Options) (switch : Switch Options) (values : List Text) :
    Except Halt (Reader Options) :=
  if values.isEmpty && switch.valueCount > 0 then .error (.misuse .invalidValue)
  else if values.length != switch.valueCount then .error (.misuse .wrongNumberOfValues)
  else if !switch.repeatable && reader.given.contains switch.names then
    .error (.misuse .repeated)
  else do
    let options ← switch.accept values reader.options
    pure { reader with options := options, given := switch.names :: reader.given }

/-- Takes the pending switch over. -/
def settle (reader : Reader Options) : Except Halt (Reader Options) :=
  match reader.pending with
  | none => .ok reader
  | some pending => { reader with pending := none }.take pending.switch pending.values

/-- A switch starts, with a value joined to it or without. -/
def start (reader : Reader Options) (switch : Switch Options) (joined : Option Text) :
    Except Halt (Reader Options) := do
  let reader ← reader.settle
  match joined with
  | some value => reader.take switch [value]
  | none =>
    if switch.valueCount = 0 then reader.take switch []
    else pure { reader with pending := some ⟨switch, []⟩ }

/-- The value joined to a letter; an equals sign before it does not count. -/
def joinedValue? : Text → Option Text
  | [] => none
  | '=' :: value => some value
  | value => some value

/-- Reads letters of switches. -/
def readLetters (switches : List (Switch Options)) (reader : Reader Options) :
    Text → Except Halt (Reader Options)
  | [] => .ok reader
  | letter :: rest =>
    match switches.find? fun switch => switch.letter == some letter with
    | none => .error (.misuse .unknownArgument)
    | some switch =>
      if switch.valueCount = 0 then do
        let reader ← reader.start switch none
        reader.readLetters switches rest
      else reader.start switch (joinedValue? rest)

/-- Reads the long name of a switch. -/
def readLong (switches : List (Switch Options)) (reader : Reader Options) (name : Text)
    (value : Option Text) : Except Halt (Reader Options) :=
  match switches.find? fun switch => switch.names.any fun known => known.toList == name with
  | none => .error (.misuse .unknownArgument)
  | some switch =>
    if switch.valueCount = 0 && value.isSome then .error (.misuse .unwantedValue)
    else reader.start switch value

/-- Reads a value, which has to be one that the pending switch still needs. -/
def readValue (reader : Reader Options) (value : Text) : Except Halt (Reader Options) :=
  match reader.pending with
  | none => .error (.misuse .unknownArgument)
  | some pending =>
    if pending.values.length < pending.switch.valueCount then
      .ok { reader with pending := some { pending with values := pending.values ++ [value] } }
    else .error (.misuse .unknownArgument)

/-- Reads one argument. -/
def read (switches : List (Switch Options)) (reader : Reader Options) (argument : Text) :
    Except Halt (Reader Options) :=
  if reader.escaped then .error (.misuse .unknownArgument)
  else
    match Argument.ofText argument with
    | .escape => .ok { reader with escaped := true }
    | .long name value => reader.readLong switches name value
    | .letters text => reader.readLetters switches text
    | .value text => reader.readValue text

end Reader

/-- Reads a whole command line, starting from the options of an empty one. -/
def parse {Options : Type} (switches : List (Switch Options)) (options : Options)
    (arguments : List Text) : Except Halt Options := do
  let reader ← arguments.foldlM (Reader.read switches) ⟨options, [], none, false⟩
  let reader ← reader.settle
  pure reader.options

end ShaderBuild.CommandLine
