import Blueprint.Metadata

/-!
# Documents from trees

A document is read from a tree, whatever text the tree was read from. `Accessors` says how a tree of
some kind answers the questions that a reader asks; the readers of all parts of a document are
written once, over any accessors. Every field may be missing unless it has no default.
-/

namespace Blueprint

/-- How a tree is asked for what it holds. Every answer may be a refusal. -/
structure Accessors (ν : Type) where
  /-- The fields of a record with the given names, in that order; none where one is missing. -/
  record? : List String → ν → Option (List (Option ν))
  /-- The items of a list. -/
  items? : ν → Option (List ν)
  /-- The entries of a map from text. -/
  entries? : ν → Option (List (String × ν))
  text? : ν → Option String
  bool? : ν → Option Bool
  /-- A number that counts something. -/
  count? : ν → Option Nat
  /-- A dynamic value. -/
  value? : ν → Option Value
  /-- The name of one of several alternatives. -/
  choice? : ν → Option String
  /-- None when the tree says that there is nothing, or else the tree itself. -/
  present? : ν → Option (Option ν)

namespace Accessors

variable {ν : Type} {α : Type}

/-- A field with a default. -/
def field (default : α) (decode : ν → Option α) : Option ν → Option α
  | none => some default
  | some tree => decode tree

def optional (a : Accessors ν) (decode : ν → Option α) (tree : ν) : Option (Option α) :=
  match a.present? tree with
  | none => none
  | some none => some none
  | some (some tree) => (decode tree).map some

def list (a : Accessors ν) (decode : ν → Option α) (tree : ν) : Option (List α) :=
  (a.items? tree).bind fun items => items.mapM decode

/-- A map from text; the last entry of a key counts. -/
def map (a : Accessors ν) (decode : ν → Option α) (tree : ν) : Option (SortedMap α) :=
  (a.entries? tree).bind fun entries =>
    (entries.mapM fun (entry : String × ν) =>
      (decode entry.2).map fun value => (entry.1, value)).map SortedMap.ofList

/-- Text that may be missing. -/
def textField (a : Accessors ν) : Option ν → Option String :=
  field "" a.text?

end Accessors

variable {ν : Type} (a : Accessors ν)

def ConnectionSource.decode (tree : ν) : Option ConnectionSource := do
  let [source, version] ← a.record? ["source", "version"] tree | none
  return { source := ← a.textField source, version := ← a.textField version }

def ConnectionSpec.decode (tree : ν) : Option ConnectionSpec := do
  let [outputExpr, inputPath] ← a.record? ["outputExpr", "inputPath"] tree | none
  return {
    outputExpr := ← a.textField outputExpr
    inputPath := ← Accessors.field none (a.optional a.text?) inputPath }

def Connection.decode (tree : ν) : Option Connection := do
  let [source, spec] ← a.record? ["source", "spec"] tree | none
  return {
    source := ← Accessors.field {} (ConnectionSource.decode a) source
    spec := ← Accessors.field {} (ConnectionSpec.decode a) spec }

def Variable.decode (tree : ν) : Option Variable := do
  let [name, description, varType, defaultValue, required, order, connections] ←
    a.record? ["name", "description", "varType", "defaultValue", "required", "order",
      "connections"] tree | none
  return {
    name := ← a.textField name
    description := ← a.textField description
    varType := ← a.textField varType
    defaultValue := ← Accessors.field none (a.optional a.value?) defaultValue
    required := ← Accessors.field false a.bool? required
    order := ← Accessors.field none (a.optional a.count?) order
    connections := ← Accessors.field [] (a.list (Connection.decode a)) connections }

def Output.decode (tree : ν) : Option Output := do
  let [name, description, type, connections] ←
    a.record? ["name", "description", "type", "connections"] tree | none
  return {
    name := ← a.textField name
    description := ← a.textField description
    type := ← Accessors.field none (a.optional a.value?) type
    connections := ← Accessors.field [] (a.list (Connection.decode a)) connections }

def Interface.decode (tree : ν) : Option Interface := do
  let [inputs, outputs] ← a.record? ["variables", "outputs"] tree | none
  return {
    inputs := ← Accessors.field [] (a.list (Variable.decode a)) inputs
    outputs := ← Accessors.field [] (a.list (Output.decode a)) outputs }

/-- Reads a grant, which needs both of its fields. -/
def RoleGrant.decode (tree : ν) : Option RoleGrant := do
  let [some level, some roles] ← a.record? ["level", "roles"] tree | none
  let level ← (a.choice? level).bind RoleLevel.ofName?
  return { level, roles := ← a.list a.text? roles }

/-- Reads the version of a provider, which needs both of its fields. -/
def ProviderVersion.decode (tree : ν) : Option ProviderVersion := do
  let [some source, some version] ← a.record? ["source", "version"] tree | none
  return { source := ← a.text? source, version := ← a.text? version }

def Requirements.decode (tree : ν) : Option Requirements := do
  let [roles, services, providerVersions] ←
    a.record? ["roles", "services", "providerVersions"] tree | none
  return {
    roles := ← Accessors.field [] (a.list (RoleGrant.decode a)) roles
    services := ← Accessors.field [] (a.list a.text?) services
    providerVersions :=
      ← Accessors.field [] (a.list (ProviderVersion.decode a)) providerVersions }

def Repository.decode (tree : ν) : Option Repository := do
  let [repo, sourceType, dir] ← a.record? ["repo", "sourceType", "dir"] tree | none
  return {
    repo := ← a.textField repo
    sourceType := ← a.textField sourceType
    dir := ← Accessors.field none (a.optional a.text?) dir }

def ActuationTool.decode (tree : ν) : Option ActuationTool := do
  let [flavor, version] ← a.record? ["flavor", "version"] tree | none
  return {
    flavor := ← Accessors.field ({} : ActuationTool).flavor a.text? flavor
    version := ← a.textField version }

def Info.decode (tree : ν) : Option Info := do
  let [title, source, version, actuationTool] ←
    a.record? ["title", "source", "version", "actuationTool"] tree | none
  return {
    title := ← a.textField title
    source := ← Accessors.field none (a.optional (Repository.decode a)) source
    version := ← a.textField version
    actuationTool := ← Accessors.field {} (ActuationTool.decode a) actuationTool }

def ResourceMeta.decode (tree : ν) : Option ResourceMeta := do
  let [name, labels] ← a.record? ["name", "labels"] tree | none
  return {
    name := ← a.textField name
    labels := ← Accessors.field .empty (a.map a.text?) labels }

def MetadataSpec.decode (tree : ν) : Option MetadataSpec := do
  let [info, interfaces, requirements] ←
    a.record? ["info", "interfaces", "requirements"] tree | none
  return {
    info := ← Accessors.field {} (Info.decode a) info
    interfaces := ← Accessors.field {} (Interface.decode a) interfaces
    requirements := ← Accessors.field {} (Requirements.decode a) requirements }

def Metadata.decode (tree : ν) : Option Metadata := do
  let [apiVersion, kind, resource, spec] ←
    a.record? ["apiVersion", "kind", "metadata", "spec"] tree | none
  return {
    apiVersion := ← Accessors.field ({} : Metadata).apiVersion a.text? apiVersion
    kind := ← Accessors.field ({} : Metadata).kind a.text? kind
    resource := ← Accessors.field {} (ResourceMeta.decode a) resource
    spec := ← Accessors.field {} (MetadataSpec.decode a) spec }

end Blueprint
