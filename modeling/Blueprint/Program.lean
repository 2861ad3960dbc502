import Blueprint.CommandLine
import Blueprint.Generate
import Blueprint.Metadata.File

/-!
# The program

What a run of the program does: from its arguments, its environment and the files it finds to an
exit code, what it prints and the files it leaves. Every command is an action on files, which may
read them and write them, and hands them on where it fails too.
-/

namespace Blueprint.Program

open CommandLine

/-- The exit code of a failure that has none of its own. -/
def failure : Nat := 1

/-- Names of configuration files in the working directory, of which the first that exists counts. -/
def configNames : List String :=
  ["bpmetadata.yaml", "bpmetadata.yml", ".bpmetadata.yaml"]

/-- What a run ends with. -/
structure Outcome where
  exitCode : Nat
  output : String
  files : FileSystem
deriving Inhabited

/-! ## Actions -/

/-- Something done to files: it gives something or fails, and leaves files either way. -/
abbrev Action (ε α : Type) :=
  ExceptT ε (StateM FileSystem) α

variable {ε α : Type}

/-- What an action gives when it is done to some files, and the files after it. -/
def perform (action : Action ε α) (fs : FileSystem) : Except ε α × FileSystem :=
  action.run.run fs

/-- Takes something from the files, if they have it. -/
def reading (take : FileSystem → Except ε α) : Action ε α :=
  .mk fun fs => (take fs, fs)

/-- Puts other files in place of the files. Where there are none to put, the files stay. -/
def writing (change : FileSystem → Except ε FileSystem) : Action ε Unit :=
  .mk fun fs =>
    match change fs with
    | .ok new => (.ok (), new)
    | .error fault => (.error fault, fs)

/-- The same action, with an exit code for its failure. -/
def withExitCode (action : Action Error α) : Action Nat α :=
  action.adapt Error.exitCode

/-! ## What the commands read -/

/-- The path of the configuration: the given one, or else one of the usual names. -/
def configPath? (fs : FileSystem) (given : Option String) : Option String :=
  given.or (configNames.find? fs.contains)

/-- Reads the configuration; without a file it is made of the defaults. -/
def loadConfig (env : Environment) (fs : FileSystem) (given : Option String) : Except Nat Config :=
  match configPath? fs given with
  | none => .ok {}
  | some path =>
    match fs.readText path with
    | .ok text => (Config.parse env text).mapError Error.exitCode
    | .error _ => .error failure

/-- The path of the earlier document: the given one, or else the usual one if there is such a
file. -/
def existingPath? (fs : FileSystem) (arguments : GenerateArguments) : Option String :=
  let usual := Path.join arguments.path Metadata.fileName
  arguments.existing.or (if fs.isFile usual then some usual else none)

/-- The earlier document, if there is one. -/
def loadExisting (fs : FileSystem) (arguments : GenerateArguments) :
    Except Error (Option Metadata) :=
  match existingPath? fs arguments with
  | none => .ok none
  | some path => (Metadata.load fs path).map some

/-- The format of the document: a given one, or else that of the file to be written, or else the
configured one. -/
def formatFor (config : Config) (arguments : GenerateArguments) : Format :=
  match arguments.output, arguments.format with
  | some path, none => .ofPath path
  | _, _ => config.output.format

/-- Where the state comes from: the given file, or else the configured tool if types are to be
resolved. -/
def stateSource? (tools : String → Tool) (fs : FileSystem) (config : Config)
    (arguments : GenerateArguments) : Option StateSource :=
  match arguments.stateFile with
  | some path => some (.file fs path)
  | none =>
    if config.state.resolveOutputTypes then some (.tool (tools config.state.tool)) else none

/-! ## The commands -/

/-- Makes a document; it is printed or written to a file. -/
def generate (tools : String → Tool) (config : Config) (arguments : GenerateArguments) :
    Action Error String := do
  let root := arguments.blueprintRoot.getD arguments.path
  let existing ← reading fun fs => loadExisting fs arguments
  let document ← reading fun fs =>
    Metadata.generate config fs (stateSource? tools fs config arguments) arguments.path root existing
  let format := formatFor config arguments
  match arguments.output with
  | some path => do
    writing fun fs => document.save fs path format config.output.pretty
    return ""
  | none => return document.render format config.output.pretty

/-- Writes a configuration to start from, unless there is one. -/
def init : Action Nat String := do
  let path := "bpmetadata.yaml"
  reading fun fs => if fs.contains path then .error failure else .ok ()
  writing fun fs => (fs.write path Config.exampleText.toUTF8).mapError fun _ => failure
  return "Created example configuration: " ++ path ++ "\n"

/-- Checks a document and says how much it describes. -/
def validate (path : String) : Action Error String := do
  let document ← reading fun fs => Metadata.load fs path
  let interface := document.spec.interfaces
  return "Metadata document is valid: " ++ path ++ " (" ++ toString interface.inputs.length ++
    " variables, " ++ toString interface.outputs.length ++ " outputs)\n"

/-- Does what a command line asks for: what is printed, or an exit code. -/
def execute (tools : String → Tool) (env : Environment) (invocation : Invocation) :
    Action Nat String := do
  let config ← reading fun fs => loadConfig env fs invocation.config
  match invocation.command with
  | .generate arguments =>
    -- Only now the configuration is complete, so that it is checked only now.
    let config := config.withArguments arguments
    withExitCode do
      reading fun _ => config.validate
      generate tools config arguments
  | .init => init
  | .validate path => withExitCode (validate path)

def run (tools : String → Tool) (env : Environment) (fs : FileSystem) (arguments : List String) :
    Outcome :=
  match CommandLine.parse env arguments with
  | .error fault => { exitCode := fault.exitCode, output := "", files := fs }
  | .ok invocation =>
    match perform (execute tools env invocation) fs with
    | (.error exitCode, files) => { exitCode, output := "", files }
    | (.ok output, files) => { exitCode := 0, output, files }

end Blueprint.Program
