import Blueprint.Extract.ModuleName
import Blueprint.Extract.Requirements
import Blueprint.Extract.Versions
import Blueprint.Merge
import Blueprint.Scan
import Blueprint.State
import Blueprint.StateSource

/-!
# Making documents

The document of a blueprint: what its directory declares, the types of its outputs in its state,
what its setup says that it needs, and what is kept of an earlier document.
-/

namespace Blueprint

namespace Requirements

/-- Whose requirements a setup is asked for: those of the submodule where the setup has the local
map that lists them by module, or else those of the blueprint. -/
def selection (body : Hcl.Body) (name localMap : String) : Selection :=
  if (body.local? localMap).isSome then .submodule name localMap else .root

/-- The requirements that the setup of a blueprint declares for a module of it; without a setup
there are none. -/
def ofSetup (config : Config) (fs : FileSystem) (root name : String) : Except Error Requirements :=
  let setup := Path.join root config.requirements.setupPath
  match fs.directory? setup with
  | none => .ok {}
  | some _ => do
    let body := (← Scan.directory config.scan fs setup).body
    return {
      roles := rolesOf body (selection body name config.requirements.rolesLocal)
      services := servicesOf body (selection body name config.requirements.servicesLocal) }

end Requirements

namespace Metadata

/-- The outputs with the types that a state source knows, if there is a source. -/
def typedOutputs (states : Option StateSource) (path : String) (outputs : List Output) :
    Except Error (List Output) :=
  match states with
  | none => .ok outputs
  | some source =>
    let resolved : Id (Except Error (Nat × List Output)) := State.resolveTypes source path outputs
    resolved.run.map (·.2)

/-- The document of the blueprint at a path, anew. -/
def describe (config : Config) (fs : FileSystem) (states : Option StateSource)
    (path root : String) : Except Error Metadata := do
  let files ← (← Scan.directory config.scan fs path).complete
  -- Names are checked file by file; everything else sees what the files say together.
  let interface ← Interface.ofFiles files
  let body : Hcl.Body := files.flatMap (·.body)
  let version := (VersionInfo.ofBody? body).getD {}
  let outputs ← typedOutputs states path interface.outputs
  let requirements ← Requirements.ofSetup config fs root (moduleName path root)
  return {
    resource := { name := (fs.name? path).getD "" }
    spec :=
      { info :=
          { version := version.moduleVersion.getD ""
            actuationTool := { version := version.requiredVersion.getD "" } }
        interfaces := { interface with outputs }
        requirements := { requirements with providerVersions := ProviderVersion.ofBody body } } }

/-- The document of the blueprint at a path, with what is kept of an earlier one. -/
def generate (config : Config) (fs : FileSystem) (states : Option StateSource)
    (path root : String) (existing : Option Metadata) : Except Error Metadata :=
  (describe config fs states path root).map fun new =>
    match existing with
    | some existing => new.merge existing
    | none => new

end Metadata
end Blueprint
