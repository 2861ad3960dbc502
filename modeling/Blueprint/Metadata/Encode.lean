import Blueprint.Metadata

/-!
# Documents as values

The value of each part of a document: an object whose fields stand in the order in which they are
written. Empty texts, empty lists and what is absent are left out, except where a field is always
there.
-/

namespace Blueprint

namespace Value

/-- The number of a count. A count that needs more than 64 bits is written as text. -/
def ofNat (n : Nat) : Value :=
  match Whole.ofNat? n with
  | some whole => number (.whole whole)
  | none => string (String.ofList (Text.decimal n))

/-- A field that is left out when its text is empty. -/
def textField (name text : String) : List (String × Value) :=
  if text.isEmpty then [] else [(name, string text)]

/-- A field that is left out when it is absent. -/
def optionalField (name : String) : Option Value → List (String × Value)
  | none => []
  | some value => [(name, value)]

/-- A field that is left out when its list is empty. -/
def listField (name : String) : List Value → List (String × Value)
  | [] => []
  | items => [(name, array items)]

end Value

namespace Connection

def toValue (c : Connection) : Value :=
  .object
    [("source", .object (("source", .string c.source.source) ::
      Value.textField "version" c.source.version)),
     ("spec", .object (("outputExpr", .string c.spec.outputExpr) ::
      Value.optionalField "inputPath" (c.spec.inputPath.map .string)))]

end Connection

namespace Variable

def toValue (v : Variable) : Value :=
  .object (("name", .string v.name) :: Value.textField "description" v.description ++
    Value.textField "varType" v.varType ++ Value.optionalField "defaultValue" v.defaultValue ++
    ("required", .bool v.required) :: Value.optionalField "order" (v.order.map Value.ofNat) ++
    Value.listField "connections" (v.connections.map Connection.toValue))

end Variable

namespace Output

def toValue (o : Output) : Value :=
  .object (("name", .string o.name) :: Value.textField "description" o.description ++
    Value.optionalField "type" o.type ++
    Value.listField "connections" (o.connections.map Connection.toValue))

end Output

namespace Interface

def toValue (i : Interface) : Value :=
  .object (Value.listField "variables" (i.inputs.map Variable.toValue) ++
    Value.listField "outputs" (i.outputs.map Output.toValue))

end Interface

namespace RoleGrant

def toValue (g : RoleGrant) : Value :=
  .object [("level", .string g.level.name), ("roles", .array (g.roles.map .string))]

end RoleGrant

namespace ProviderVersion

def toValue (p : ProviderVersion) : Value :=
  .object [("source", .string p.source), ("version", .string p.version)]

end ProviderVersion

namespace Requirements

def toValue (r : Requirements) : Value :=
  .object (Value.listField "roles" (r.roles.map RoleGrant.toValue) ++
    Value.listField "services" (r.services.map .string) ++
    Value.listField "providerVersions" (r.providerVersions.map ProviderVersion.toValue))

end Requirements

namespace Repository

def toValue (r : Repository) : Value :=
  .object (("repo", .string r.repo) :: ("sourceType", .string r.sourceType) ::
    Value.optionalField "dir" (r.dir.map .string))

end Repository

namespace ActuationTool

def toValue (t : ActuationTool) : Value :=
  .object (("flavor", .string t.flavor) :: Value.textField "version" t.version)

end ActuationTool

namespace Info

def toValue (i : Info) : Value :=
  .object (Value.textField "title" i.title ++
    Value.optionalField "source" (i.source.map Repository.toValue) ++
    Value.textField "version" i.version ++ [("actuationTool", i.actuationTool.toValue)])

end Info

namespace ResourceMeta

def toValue (r : ResourceMeta) : Value :=
  let labels := r.labels.entries.map fun (key, text) => (key, Value.string text)
  .object (("name", .string r.name) ::
    (if labels.isEmpty then [] else [("labels", .object labels)]))

end ResourceMeta

namespace MetadataSpec

def toValue (s : MetadataSpec) : Value :=
  .object [("info", s.info.toValue), ("interfaces", s.interfaces.toValue),
    ("requirements", s.requirements.toValue)]

end MetadataSpec

namespace Metadata

def toValue (m : Metadata) : Value :=
  .object [("apiVersion", .string m.apiVersion), ("kind", .string m.kind),
    ("metadata", m.resource.toValue), ("spec", m.spec.toValue)]

end Metadata
end Blueprint
