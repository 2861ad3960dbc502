import Blueprint.Constraint
import Blueprint.Hcl.Literal
import Blueprint.Metadata

/-!
# Versions in source files

The version that is required of the deploying tool, the version of the blueprint itself and the
versions required of providers, as `terraform` blocks state them. What is malformed counts as
absent.
-/

namespace Blueprint

/-- The versions that a blueprint states. -/
structure VersionInfo where
  requiredVersion : Option String := none
  moduleVersion : Option String := none
deriving DecidableEq, Repr, Inhabited

namespace VersionInfo

open Hcl

/-- The text after the last `/v` of a module name, when no slash or blank follows. -/
def versionSuffix? (name : List Char) : Option (List Char) :=
  let last := (name.reverse.takeWhile fun c => c != '/' && !Text.isBlank c).reverse
  let before := name.take (name.length - last.length)
  match before.getLast?, last with
  | some '/', 'v' :: version => if version.isEmpty then none else some version
  | _, _ => none

/-- The version at the end of a module name. -/
def ofModuleName? (name : String) : Option String :=
  (versionSuffix? name.toList).bind fun version =>
    match Version.parse version with
    | .ok _ => some (String.ofList version)
    | .error _ => none

/-- The version that is required of the deploying tool: the first one stated, if it is a
constraint. -/
def required? (body : Body) : Option String :=
  ((body.blocksOf "terraform").findSome? fun block => block.body.string? "required_version").bind
    fun raw =>
      match Constraint.parse raw with
      | .ok constraint => some constraint.raw
      | .error _ => none

/-- Whether a block carries the name of the module: it is about one of the providers that do. -/
def namesModule (block : Block) : Bool :=
  block.name? == some "google" || block.name? == some "google-beta"

/-- The name of the module, the first one stated. -/
def moduleName? (body : Body) : Option String :=
  let metas := (body.blocksOf "terraform").flatMap fun block => block.body.blocksOf "provider_meta"
  (metas.filter namesModule).findSome? fun block => block.body.string? "module_name"

/-- The versions that a body states; none when it states neither. -/
def ofBody? (body : Body) : Option VersionInfo :=
  let requiredVersion := required? body
  let moduleVersion := (moduleName? body).bind ofModuleName?
  if requiredVersion.isNone && moduleVersion.isNone then none
  else some { requiredVersion, moduleVersion }

end VersionInfo

namespace ProviderVersion

open Hcl

/-- The version required of a provider, as an object with `source` and `version` or as a version
alone. The source defaults to one derived from the name. -/
def ofRequirement? (name : String) (requirement : Expr) : Option ProviderVersion :=
  let field? (key : String) : Option String := (requirement.member? key).bind Expr.literalString?
  let (source?, version?) := match requirement with
    | .object _ => (field? "source", field? "version")
    | other => (none, other.literalString?)
  version?.map fun version => { source := source?.getD ("hashicorp/" ++ name), version }

/-- The versions required of providers, in source order. -/
def ofBody (body : Body) : List ProviderVersion :=
  let blocks := (body.blocksOf "terraform").flatMap fun block =>
    block.body.blocksOf "required_providers"
  (blocks.flatMap fun block => block.body.attributes).filterMap fun (name, requirement) =>
    ofRequirement? name requirement

end ProviderVersion
end Blueprint
