import Blueprint.Value

/-!
# Metadata documents

What is recorded about a blueprint: where it comes from, its variables and outputs, and what it
needs to be deployed. Text that is empty and lists without items stand for things that are not
known.
-/

namespace Blueprint

/-- Where a value comes from that can be connected to a variable or output. -/
structure ConnectionSource where
  source : String := ""
  version : String := ""
deriving DecidableEq, Repr, Inhabited

/-- How the value is obtained. -/
structure ConnectionSpec where
  outputExpr : String := ""
  inputPath : Option String := none
deriving DecidableEq, Repr, Inhabited

/-- A connection to another blueprint; people add these by hand. -/
structure Connection where
  source : ConnectionSource := {}
  spec : ConnectionSpec := {}
deriving DecidableEq, Repr, Inhabited

/-- An input variable. -/
structure Variable where
  name : String := ""
  description : String := ""
  /-- The type as it is written in the blueprint. -/
  varType : String := ""
  defaultValue : Option Value := none
  required : Bool := false
  /-- The place of the variable among all variables, from zero. -/
  order : Option Nat := none
  connections : List Connection := []
deriving DecidableEq, Repr, Inhabited

/-- An output value. -/
structure Output where
  name : String := ""
  description : String := ""
  /-- The type as a recorded state tells it. -/
  type : Option Value := none
  connections : List Connection := []
deriving DecidableEq, Repr, Inhabited

/-- The variables and outputs of a blueprint, in source order. -/
structure Interface where
  /-- The input variables. -/
  inputs : List Variable := []
  outputs : List Output := []
deriving DecidableEq, Repr, Inhabited

namespace Interface

def variableNamed? (interface : Interface) (name : String) : Option Variable :=
  interface.inputs.find? fun v => v.name == name

def outputNamed? (interface : Interface) (name : String) : Option Output :=
  interface.outputs.find? fun o => o.name == name

end Interface

/-- The level at which roles are granted. -/
inductive RoleLevel where
  | project
  | folder
  | organization
  | billingAccount
deriving DecidableEq, Repr, Inhabited

namespace RoleLevel

/-- All levels, from the narrowest. -/
def all : List RoleLevel := [project, folder, organization, billingAccount]

def name : RoleLevel → String
  | project => "Project"
  | folder => "Folder"
  | organization => "Organization"
  | billingAccount => "BillingAccount"

/-- The type of the resources that grant a role at a level. -/
def resourceType : RoleLevel → String
  | project => "google_project_iam_member"
  | folder => "google_folder_iam_member"
  | organization => "google_organization_iam_member"
  | billingAccount => "google_billing_account_iam_member"

def ofName? (name : String) : Option RoleLevel :=
  all.find? fun level => level.name == name

/-- The level at which resources of a type grant roles. -/
def ofResourceType? (resourceType : String) : Option RoleLevel :=
  all.find? fun level => level.resourceType == resourceType

end RoleLevel

/-- Roles that are needed at a level. -/
structure RoleGrant where
  level : RoleLevel
  roles : List String
deriving DecidableEq, Repr, Inhabited

/-- The version that is required of a provider. -/
structure ProviderVersion where
  source : String
  version : String
deriving DecidableEq, Repr, Inhabited

/-- What a blueprint needs to be deployed. -/
structure Requirements where
  roles : List RoleGrant := []
  services : List String := []
  providerVersions : List ProviderVersion := []
deriving DecidableEq, Repr, Inhabited

/-- The tool that deploys a blueprint. -/
structure ActuationTool where
  flavor : String := "Terraform"
  version : String := ""
deriving DecidableEq, Repr, Inhabited

/-- The repository that holds a blueprint. -/
structure Repository where
  repo : String := ""
  sourceType : String := ""
  dir : Option String := none
deriving DecidableEq, Repr, Inhabited

/-- General information about a blueprint. -/
structure Info where
  title : String := ""
  source : Option Repository := none
  version : String := ""
  actuationTool : ActuationTool := {}
deriving DecidableEq, Repr, Inhabited

/-- The name of a blueprint and labels that people attach to it. -/
structure ResourceMeta where
  name : String := ""
  labels : SortedMap String := .empty
deriving DecidableEq, Repr, Inhabited

/-- The description of a blueprint. -/
structure MetadataSpec where
  info : Info := {}
  interfaces : Interface := {}
  requirements : Requirements := {}
deriving DecidableEq, Repr, Inhabited

/-- A metadata document. -/
structure Metadata where
  apiVersion : String := "blueprints.cloud.google.com/v1alpha1"
  kind : String := "BlueprintMetadata"
  resource : ResourceMeta := {}
  spec : MetadataSpec := {}
deriving DecidableEq, Repr, Inhabited

/-- The formats in which documents are written. -/
inductive Format where
  | yaml
  | json
deriving DecidableEq, Repr, Inhabited

namespace Format

def name : Format → String
  | yaml => "yaml"
  | json => "json"

def ofName? (name : String) : Option Format :=
  [yaml, json].find? fun format => format.name == name

end Format
end Blueprint
