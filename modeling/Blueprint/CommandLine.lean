import Blueprint.Config

/-!
# The command line

A command line consists of switches, options with a value, the name of a subcommand and its operand.
Switches and options that are global may stand before or behind the subcommand; those behind it win.
Arguments are read from left to right, and a value is checked when the next switch, option or
operand begins, so that of several faults one is reported.
-/

namespace Blueprint.CommandLine

/-- Why a command line is not an invocation: it is faulty, or it asks for help or for the
version. -/
inductive Fault where
  | unknownArgument
  | invalidSubcommand
  | invalidValue
  /-- Something that may occur once occurs again. -/
  | argumentConflict
  /-- A switch with a value. -/
  | tooManyValues
  | missingSubcommand
  /-- Nothing was given at all. -/
  | nothingGiven
  | helpWanted
  | versionWanted
deriving DecidableEq, Repr

namespace Fault

/-- The exit code after a fault. Asking for help or for the version is none. -/
def exitCode : Fault → Nat
  | helpWanted | versionWanted => 0
  | _ => 2

end Fault

/-- The part of a command line that is being read: what precedes a subcommand, or a subcommand. -/
inductive Level where
  | top
  | generate
  | init
  | validate
deriving DecidableEq, Repr

/-- Something that is given without a value. -/
inductive Switch where
  | verbose
  | quiet
  | resolveOutputTypes
  | failFast
  | help
  | version
deriving DecidableEq, Repr

/-- Something that is given with a value. -/
inductive Setting where
  | config
  | blueprintRoot
  | existing
  | output
  | format
  | stateFile
  | exclude
deriving DecidableEq, Repr

/-- What the name of a switch or an option stands for. -/
inductive Meaning where
  | switch (s : Switch)
  | setting (s : Setting)
deriving DecidableEq, Repr

/-- The long name and the letter, if any, of a switch or an option. -/
structure Spelling where
  long : String
  letter : Option Char
  meaning : Meaning
deriving DecidableEq, Repr

namespace Level

/-- What may be given at every level. -/
def globalSpellings : List Spelling :=
  [⟨"config", some 'c', .setting .config⟩, ⟨"verbose", some 'v', .switch .verbose⟩,
   ⟨"quiet", some 'q', .switch .quiet⟩, ⟨"help", some 'h', .switch .help⟩]

/-- What may be given at one level only. -/
def ownSpellings : Level → List Spelling
  | top => [⟨"version", some 'V', .switch .version⟩]
  | generate =>
    [⟨"blueprint-root", none, .setting .blueprintRoot⟩,
     ⟨"existing", some 'e', .setting .existing⟩,
     ⟨"output", some 'o', .setting .output⟩,
     ⟨"format", some 'f', .setting .format⟩,
     ⟨"resolve-output-types", none, .switch .resolveOutputTypes⟩,
     ⟨"state-file", none, .setting .stateFile⟩,
     ⟨"fail-fast", none, .switch .failFast⟩,
     ⟨"exclude", none, .setting .exclude⟩]
  | init | validate => []

def spellings (level : Level) : List Spelling :=
  globalSpellings ++ level.ownSpellings

def long? (level : Level) (name : String) : Option Meaning :=
  (level.spellings.find? fun spelling => spelling.long == name).map (·.meaning)

def letter? (level : Level) (letter : Char) : Option Meaning :=
  (level.spellings.find? fun spelling => spelling.letter == some letter).map (·.meaning)

def takesOperand : Level → Bool
  | generate | validate => true
  | top | init => false

def subcommand? : String → Option Level
  | "generate" | "g" => some generate
  | "init" => some init
  | "validate" => some validate
  | _ => none

end Level

/-- The name of the subcommand that prints help. -/
def helpName : String := "help"

/-- What a value is for. -/
inductive Target where
  | setting (s : Setting)
  | operand
deriving DecidableEq, Repr

/-- What was given at a level. -/
structure Given where
  switches : List Switch := []
  /-- How often the output was asked to be more verbose. -/
  verbosity : Nat := 0
  values : List (Target × String) := []
  /-- What has begun and is not checked: what it is for, and its value, if that was seen. -/
  pending : Option (Target × Option String) := none
  /-- Whether only operands follow. -/
  operandsOnly : Bool := false
deriving DecidableEq, Repr, Inhabited

namespace Given

def has (given : Given) (target : Target) : Bool :=
  given.values.any fun value => value.1 == target

/-- The value that was given for a target. -/
def value? (given : Given) (target : Target) : Option String :=
  (given.values.find? fun value => value.1 == target).map (·.2)

def setting? (given : Given) (s : Setting) : Option String :=
  given.value? (.setting s)

def settings (given : Given) (s : Setting) : List String :=
  (given.values.filter fun value => value.1 == .setting s).map (·.2)

/-- Whether a text is a value for a target: formats have names, paths are not empty, patterns may be
anything. -/
def accepts (target : Target) (text : String) : Bool :=
  match target with
  | .setting .format => (Format.ofName? text).isSome
  | .setting .exclude => true
  | _ => !text.isEmpty

/-- Takes a value over. Only patterns may be given more than once. -/
def store (given : Given) (target : Target) (text : String) : Except Fault Given :=
  if given.has target && target != .setting .exclude then .error .argumentConflict
  else if accepts target text then
    .ok { given with values := given.values ++ [(target, text)] }
  else .error .invalidValue

def settle (given : Given) : Except Fault Given :=
  match given.pending with
  | none => .ok given
  | some (_, none) => .error .invalidValue
  | some (target, some text) => ({ given with pending := none }).store target text

/-- Whether an option waits for its value. -/
def awaitsValue (given : Given) : Bool :=
  match given.pending with
  | some (_, none) => true
  | _ => false

def turnOn (given : Given) (s : Switch) : Except Fault Given := do
  let given ← given.settle
  match s with
  -- Both end the reading, whatever faults are still to come.
  | .help => throw .helpWanted
  | .version => throw .versionWanted
  | .verbose => return { given with verbosity := min 255 (given.verbosity + 1) }
  | s =>
    if s ∈ given.switches then throw .argumentConflict
    return { given with switches := s :: given.switches }

/-- Takes an option, with its value or before it. -/
def begin (given : Given) (s : Setting) (attached : Option (List Char)) : Except Fault Given := do
  let given ← given.settle
  match attached with
  | some text => given.store (.setting s) (String.ofList text)
  | none => return { given with pending := some (.setting s, none) }

/-- Reads an argument after two dashes: a long name and perhaps, after an equals sign, a value. -/
def readLong (level : Level) (given : Given) (text : List Char) : Except Fault Given :=
  let name := text.takeWhile (· != '=')
  let attached := match text.dropWhile (· != '=') with
    | [] => none
    | _ :: value => some value
  match level.long? (String.ofList name) with
  | none => .error .unknownArgument
  | some (.setting s) => given.begin s attached
  | some (.switch s) => if attached.isSome then .error .tooManyValues else given.turnOn s

/-- Reads an argument after one dash: letters, of which the first one with a value ends them. -/
def readLetters (level : Level) (given : Given) : List Char → Except Fault Given
  | [] => .ok given
  | letter :: rest =>
    match level.letter? letter with
    | none => .error .unknownArgument
    | some (.switch s) => do readLetters level (← given.turnOn s) rest
    | some (.setting s) =>
      match rest with
      | [] => given.begin s none
      | '=' :: value => given.begin s (some value)
      | value => given.begin s (some value)

/-- Reads an argument that is neither a switch nor an option. -/
def readOperand (level : Level) (given : Given) (text : String) : Except Fault Given := do
  let begun := given.has .operand || match given.pending with
    | some (target, _) => target == .operand
    | none => false
  if level.takesOperand && !begun then
    return { ← given.settle with pending := some (.operand, some text) }
  else if level = .top then
    throw (if given.operandsOnly && ((Level.subcommand? text).isSome || text = helpName)
      then .unknownArgument else .invalidSubcommand)
  else throw .unknownArgument

def read (level : Level) (given : Given) (text : String) : Except Fault Given :=
  if given.operandsOnly then given.readOperand level text
  else
    match text.toList with
    | ['-', '-'] => .ok { given with operandsOnly := true }
    | '-' :: '-' :: name => given.readLong level name
    | '-' :: letter :: rest => given.readLetters level (letter :: rest)
    | _ =>
      match given.pending with
      -- An option that waits takes any argument without a dash for its value.
      | some (target, none) => .ok { given with pending := some (target, some text) }
      | _ => given.readOperand level text

def readAll (level : Level) (given : Given) : List String → Except Fault Given
  | [] => .ok given
  | text :: rest => do readAll level (← given.read level text) rest

/-- The variable of the environment that names a configuration file. -/
def configVariable : String := "BPMETADATA_CONFIG"

/-- Ends a level. Where no configuration file is given, the one that the environment names counts,
and that may not be empty either. -/
def finish (given : Given) (env : Environment) : Except Fault Given := do
  let given ← given.settle
  if !given.has (.setting .config) && env.get? configVariable == some "" then throw .invalidValue
  return given

def isEmpty (given : Given) : Bool :=
  given.switches.isEmpty && given.verbosity == 0 && given.values.isEmpty

end Given

/-- What to do for the subcommand that makes a document. -/
structure GenerateArguments where
  path : String := "."
  blueprintRoot : Option String := none
  existing : Option String := none
  output : Option String := none
  format : Option Format := none
  resolveOutputTypes : Bool := false
  stateFile : Option String := none
  failFast : Bool := false
  excludePatterns : List String := []
deriving DecidableEq, Repr, Inhabited

/-- A subcommand with its arguments. -/
inductive Command where
  /-- Make a document. -/
  | generate (arguments : GenerateArguments)
  /-- Write a configuration to start from. -/
  | init
  /-- Check a document. -/
  | validate (file : String)
deriving DecidableEq, Repr, Inhabited

/-- What a command line asks for. -/
structure Invocation where
  config : Option String
  verbosity : Nat
  quiet : Bool
  command : Command
deriving DecidableEq, Repr, Inhabited

/-- The arguments that were given for making a document. -/
def GenerateArguments.ofGiven (given : Given) : GenerateArguments where
  path := (given.value? .operand).getD "."
  blueprintRoot := given.setting? .blueprintRoot
  existing := given.setting? .existing
  output := given.setting? .output
  format := (given.setting? .format).bind Format.ofName?
  resolveOutputTypes := .resolveOutputTypes ∈ given.switches
  stateFile := given.setting? .stateFile
  failFast := .failFast ∈ given.switches
  excludePatterns := given.settings .exclude

/-- The subcommand of a level with what was given for it. -/
def Command.ofGiven (given : Given) : Level → Command
  | .generate => .generate (.ofGiven given)
  | .validate => .validate ((given.value? .operand).getD "metadata.yaml")
  | .top | .init => .init

/-- What is asked for by what was given before a subcommand and behind it. -/
def Invocation.ofGiven (env : Environment) (before behind : Given) (level : Level) : Invocation where
  config := (behind.setting? .config).or
    ((before.setting? .config).or (env.get? Given.configVariable))
  verbosity := if behind.verbosity = 0 then before.verbosity else behind.verbosity
  quiet := .quiet ∈ behind.switches ∨ .quiet ∈ before.switches
  command := .ofGiven behind level

/-- The fault of asking for help on a subcommand. -/
def helpFault : List String → Fault
  | [] => .helpWanted
  | [name] =>
    if (Level.subcommand? name).isSome || name == helpName then .helpWanted else .invalidSubcommand
  | _ => .invalidSubcommand

/-- Reads a command line from before a subcommand. -/
def parseFrom (env : Environment) (before : Given) : List String → Except Fault Invocation
  | [] => do
    let before ← before.finish env
    throw (if before.isEmpty && (env.get? Given.configVariable).isNone then .nothingGiven
      else .missingSubcommand)
  | text :: rest =>
    let name := if before.operandsOnly || before.awaitsValue then "" else text
    if name = helpName then .error (helpFault rest)
    else match Level.subcommand? name with
      | some level => do
        let behind ← (← Given.readAll level {} rest).finish env
        let before ← before.finish env
        return .ofGiven env before behind level
      | none => do parseFrom env (← before.read .top text) rest

/-- Reads a command line, without the name of the program, in an environment. -/
def parse (env : Environment) (arguments : List String) : Except Fault Invocation :=
  parseFrom env {} arguments

end CommandLine

namespace Config

/-- A configuration with what a command line says about it. -/
def withArguments (config : Config) (arguments : CommandLine.GenerateArguments) : Config where
  scan := { config.scan with
    excludePatterns := config.scan.excludePatterns ++ arguments.excludePatterns
    continueOnError := config.scan.continueOnError && !arguments.failFast }
  requirements := config.requirements
  state := { config.state with
    resolveOutputTypes := config.state.resolveOutputTypes || arguments.resolveOutputTypes }
  output := { config.output with format := arguments.format.getD config.output.format }

end Config
end Blueprint
