import Challenger1P.Text.Decimal

/-!
# The command line

Options with a value each, in any order: `--name value` or `--name=value`. Nothing else may stand on
the command line but a request for help and one `--` at its end.

The first thing that is wrong, from the left, is reported. A value in an argument of its own is
looked at late, when the next option or the end of the line is reached; so an argument that is not
understood comes before it.
-/

namespace Challenger1P

/-- Where the machine is shown. -/
inductive FrontendKind where
  | window
  | terminal
  deriving DecidableEq, Repr

/-- What the options say. -/
structure Arguments where
  romDirectory : String := "roms"
  monitor : String := "SYN600.ROM"
  basic : String := "OSIBASIC.ROM"
  characterRom : Option String := none
  clockHz : UInt64 := 1000000
  tickMillis : UInt64 := 10
  frontend : FrontendKind := .window
  scale : UInt64 := 2
  deriving DecidableEq, Repr

inductive OptionName where
  | romDirectory
  | monitor
  | basic
  | characterRom
  | clockHz
  | tickMillis
  | frontend
  | scale
  deriving DecidableEq, Repr

/-- How an option is written, after two dashes. -/
def OptionName.word : OptionName → String
  | .romDirectory => "rom-dir"
  | .monitor => "monitor"
  | .basic => "basic"
  | .characterRom => "chargen"
  | .clockHz => "clock-hz"
  | .tickMillis => "tick-ms"
  | .frontend => "frontend"
  | .scale => "scale"

def OptionName.all : List OptionName :=
  [.romDirectory, .monitor, .basic, .characterRom, .clockHz, .tickMillis, .frontend, .scale]

def OptionName.ofWord? (word : String) : Option OptionName := all.find? (·.word = word)

/-- Why a command line is not carried out. -/
inductive CommandLineError where
  /-- No argument like this is understood. -/
  | unknownArgument (argument : String)
  /-- An option stands without a value. -/
  | missingValue (option : OptionName)
  /-- An option has an empty value, or one that is none of its choices. -/
  | unsuitableValue (option : OptionName)
  /-- An option that takes a number has another value. -/
  | notANumber (option : OptionName)
  /-- An option stands twice. -/
  | givenTwice (option : OptionName)
  /-- The request for help has a value. -/
  | helpWithValue
  /-- Help is requested. -/
  | helpRequested
  deriving DecidableEq, Repr

def CommandLineError.message : CommandLineError → String
  | .unknownArgument argument => s!"unexpected argument {argument}"
  | .missingValue option => s!"--{option.word} needs a value"
  | .unsuitableValue option => s!"unsuitable value for --{option.word}"
  | .notANumber option => s!"--{option.word} needs a number"
  | .givenTwice option => s!"--{option.word} is given twice"
  | .helpWithValue => "--help takes no value"
  | .helpRequested =>
    "options: " ++ String.intercalate ", " (OptionName.all.map fun option => s!"--{option.word}")

/-- An argument by its form. -/
inductive Token where
  /-- Two dashes alone. -/
  | separator
  /-- Two dashes, a word, and perhaps a value after an equals sign. -/
  | long (word : String) (value : Option String)
  /-- One dash, and what follows it. -/
  | short (letters : List Char)
  | plain
  deriving DecidableEq, Repr

def cutAtEquals (text : List Char) : String × Option String :=
  let word := String.ofList (text.takeWhile (· ≠ '='))
  match text.dropWhile (· ≠ '=') with
  | [] => (word, none)
  | _ :: value => (word, some (String.ofList value))

def Token.ofArgument (argument : String) : Token :=
  match argument.toList with
  | ['-', '-'] => .separator
  | '-' :: '-' :: rest => .long (cutAtEquals rest).1 (cutAtEquals rest).2
  | '-' :: letter :: rest => .short (letter :: rest)
  | _ => .plain

/-- How far a command line has been read. -/
structure Reading where
  arguments : Arguments := {}
  /-- The options whose values are in `arguments`. -/
  given : List OptionName := []
  /-- The option read last, with its value if that has been read. -/
  pending : Option (OptionName × Option String) := none

namespace Reading

/-- The settings of an option, as its value has them. -/
def assign (a : Arguments) (option : OptionName) (value : String) :
    Except CommandLineError Arguments :=
  let path : Except CommandLineError String :=
    if value.isEmpty then .error (.unsuitableValue option) else .ok value
  let number : Except CommandLineError UInt64 :=
    match readUInt64? value with
    | some n => .ok n
    | none => .error (.notANumber option)
  match option with
  | .romDirectory => return { a with romDirectory := ← path }
  | .monitor => return { a with monitor := value }
  | .basic => return { a with basic := value }
  | .characterRom => return { a with characterRom := some (← path) }
  | .clockHz => return { a with clockHz := ← number }
  | .tickMillis => return { a with tickMillis := ← number }
  | .scale => return { a with scale := ← number }
  | .frontend =>
    match value with
    | "window" => return { a with frontend := .window }
    | "terminal" => return { a with frontend := .terminal }
    | _ => .error (.unsuitableValue option)

/-- Take an option and its value. -/
def give (r : Reading) (option : OptionName) (value : String) : Except CommandLineError Reading :=
  if option ∈ r.given then .error (.givenTwice option)
  else do
    let arguments ← assign r.arguments option value
    return { arguments, given := option :: r.given }

/-- Look at the option read last. -/
def settle (r : Reading) : Except CommandLineError Reading :=
  match r.pending with
  | none => .ok r
  | some (option, none) => .error (.missingValue option)
  | some (option, some value) => r.give option value

def readOption (r : Reading) (argument word : String) (value : Option String) :
    Except CommandLineError Reading :=
  if word = "help" then
    match value with
    | some _ => .error .helpWithValue
    | none => r.settle.bind fun _ => .error .helpRequested
  else
    match OptionName.ofWord? word with
    | none => .error (.unknownArgument argument)
    | some option => do
      let r ← r.settle
      match value with
      | some value => r.give option value
      | none => return { r with pending := some (option, none) }

/-- Read what is left of a command line. -/
def readAll : Reading → List String → Except CommandLineError Arguments
  | r, [] => return (← r.settle).arguments
  | r, argument :: rest =>
    match Token.ofArgument argument with
    | .separator =>
      match rest with
      | [] => return (← r.settle).arguments
      | argument :: _ => .error (.unknownArgument argument)
    | .long word value => do (← r.readOption argument word value).readAll rest
    | .short ('h' :: _) => r.settle.bind fun _ => .error .helpRequested
    | .short _ => .error (.unknownArgument argument)
    | .plain =>
      match r.pending with
      | some (option, none) => readAll { r with pending := some (option, some argument) } rest
      | _ => .error (.unknownArgument argument)

end Reading

def Arguments.ofCommandLine (line : List String) : Except CommandLineError Arguments :=
  ({} : Reading).readAll line

end Challenger1P
