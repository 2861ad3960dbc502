import Blueprint.Environment
import Blueprint.Error
import Blueprint.Glob
import Blueprint.Metadata.Encode
import Blueprint.Yaml.Accessors
import Blueprint.Yaml.Parser

/-!
# Configuration

What is scanned, where requirements are declared, how states are retrieved and how documents are
written. A configuration is read from YAML in which references to environment variables are replaced
first; every field has a default.
-/

namespace Blueprint

/-- Which source files are read. -/
structure ScanOptions where
  /-- Patterns of names of files and directories that are left out. -/
  excludePatterns : List String := []
  /-- Whether files that cannot be read as source are recorded and passed over. -/
  continueOnError : Bool := true
  /-- How deep below a directory its source files lie. -/
  maxDepth : Nat := 1
deriving DecidableEq, Repr, Inhabited

/-- Where requirements are declared. -/
structure RequirementsOptions where
  /-- The directory of the setup, seen from the root of a blueprint. -/
  setupPath : String := "test/setup"
  /-- The local map that lists roles by module. -/
  rolesLocal : String := "per_module_roles"
  /-- The local map that lists services by module. -/
  servicesLocal : String := "per_module_services"
deriving DecidableEq, Repr, Inhabited

/-- How states are retrieved. -/
structure StateOptions where
  resolveOutputTypes : Bool := false
  /-- The tool that prints the state of a directory. -/
  tool : String := "terraform"
deriving DecidableEq, Repr, Inhabited

/-- How documents are written. -/
structure OutputOptions where
  format : Format := .yaml
  pretty : Bool := true
deriving DecidableEq, Repr, Inhabited

/-- A configuration. -/
structure Config where
  scan : ScanOptions := {}
  requirements : RequirementsOptions := {}
  state : StateOptions := {}
  output : OutputOptions := {}
deriving DecidableEq, Repr, Inhabited

section Reading

variable {ν : Type} (a : Accessors ν)

def ScanOptions.decode (tree : ν) : Option ScanOptions := do
  let [patterns, continueOnError, maxDepth] ←
    a.record? ["exclude_patterns", "continue_on_error", "max_depth"] tree | none
  let default : ScanOptions := {}
  return {
    excludePatterns := ← Accessors.field default.excludePatterns (a.list a.text?) patterns
    continueOnError := ← Accessors.field default.continueOnError a.bool? continueOnError
    maxDepth := ← Accessors.field default.maxDepth a.count? maxDepth }

def RequirementsOptions.decode (tree : ν) : Option RequirementsOptions := do
  let [setupPath, rolesLocal, servicesLocal] ←
    a.record? ["setup_path", "per_module_roles_local", "per_module_services_local"] tree | none
  let default : RequirementsOptions := {}
  return {
    setupPath := ← Accessors.field default.setupPath a.text? setupPath
    rolesLocal := ← Accessors.field default.rolesLocal a.text? rolesLocal
    servicesLocal := ← Accessors.field default.servicesLocal a.text? servicesLocal }

def StateOptions.decode (tree : ν) : Option StateOptions := do
  let [resolveOutputTypes, tool] ←
    a.record? ["resolve_output_types", "terraform_binary"] tree | none
  let default : StateOptions := {}
  return {
    resolveOutputTypes := ← Accessors.field default.resolveOutputTypes a.bool? resolveOutputTypes
    tool := ← Accessors.field default.tool a.text? tool }

def OutputOptions.decode (tree : ν) : Option OutputOptions := do
  let [format, pretty] ← a.record? ["format", "pretty"] tree | none
  let default : OutputOptions := {}
  return {
    format := ← Accessors.field default.format (fun node => (a.choice? node).bind Format.ofName?) format
    pretty := ← Accessors.field default.pretty a.bool? pretty }

def Config.decode (tree : ν) : Option Config := do
  let [scan, requirements, state, output] ←
    a.record? ["scan", "requirements", "state", "output"] tree | none
  return {
    scan := ← Accessors.field {} (ScanOptions.decode a) scan
    requirements := ← Accessors.field {} (RequirementsOptions.decode a) requirements
    state := ← Accessors.field {} (StateOptions.decode a) state
    output := ← Accessors.field {} (OutputOptions.decode a) output }

end Reading

namespace Config

/-- Checks what a field of the right type may still get wrong; the first fault is the error. -/
def validate (config : Config) : Except Error Unit := do
  if config.scan.maxDepth = 0 then
    throw (.configValue "scan.max_depth" "must be at least 1")
  match config.scan.excludePatterns.find? fun pattern => !Glob.isPattern pattern with
  | some pattern =>
    throw (.configValue "scan.exclude_patterns" ("invalid glob pattern '" ++ pattern ++ "'"))
  | none => pure ()
  if config.state.tool.toList.all Text.isBlank then
    throw (.configValue "state.terraform_binary" "must not be empty")

/-- The configuration that a text holds, before it is checked. -/
def read? (text : String) : Option Config :=
  (Yaml.read? text).bind fun node => decode Yaml.Bounded.accessors ⟨node, Yaml.maxDepth⟩

/-- Reads and checks a configuration in an environment. -/
def parse (env : Environment) (text : String) : Except Error Config :=
  match read? (env.expand text) with
  | some config => config.validate.map fun _ => config
  | none => .error .config

def toValue (config : Config) : Value :=
  .object
    [("scan", .object
      [("exclude_patterns", .array (config.scan.excludePatterns.map .string)),
       ("continue_on_error", .bool config.scan.continueOnError),
       ("max_depth", .ofNat config.scan.maxDepth)]),
     ("requirements", .object
      [("setup_path", .string config.requirements.setupPath),
       ("per_module_roles_local", .string config.requirements.rolesLocal),
       ("per_module_services_local", .string config.requirements.servicesLocal)]),
     ("state", .object
      [("resolve_output_types", .bool config.state.resolveOutputTypes),
       ("terraform_binary", .string config.state.tool)]),
     ("output", .object
      [("format", .string config.output.format.name),
       ("pretty", .bool config.output.pretty)])]

/-- A configuration to start from, with the defaults and what they mean. -/
def exampleText : String :=
  String.intercalate "\n"
    ["# bpmetadata configuration file",
     "",
     "# Scanning options",
     "scan:",
     "  # File name patterns to skip (glob patterns)",
     "  exclude_patterns: []",
     "",
     "  # Skip files that fail to parse while reading roles and services",
     "  continue_on_error: true",
     "",
     "  # Directory depth to read .tf files from (1 = module directory only)",
     "  max_depth: 1",
     "",
     "# Where the setup configuration declaring roles and services lives",
     "requirements:",
     "  # Relative to the blueprint root",
     "  setup_path: test/setup",
     "",
     "  # Local maps keyed by submodule name",
     "  per_module_roles_local: per_module_roles",
     "  per_module_services_local: per_module_services",
     "",
     "# Output type resolution",
     "state:",
     "  # Run terraform to back-fill output types from state",
     "  resolve_output_types: false",
     "",
     "  # Terraform executable (can use environment variable)",
     "  # terraform_binary: $\x7bTERRAFORM_BIN\x7d",
     "  terraform_binary: terraform",
     "",
     "# Output options",
     "output:",
     "  # yaml or json",
     "  format: yaml",
     "",
     "  # Pretty-print JSON output",
     "  pretty: true",
     ""]

end Config
end Blueprint
