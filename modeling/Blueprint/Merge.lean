import Blueprint.Metadata

/-!
# Keeping what people wrote

A document that is made anew takes over from an earlier one what cannot be read from a blueprint.
Connections, names, titles and labels of the earlier document win over new ones; sources, versions
and output types of the new document win over earlier ones. Elements are matched by name, and of
several earlier elements of a name the first one counts.
-/

namespace Blueprint

/-- Connections after a merge: the earlier ones, if there are any. -/
def keepConnections (previous : Option (List Connection)) (new : List Connection) :
    List Connection :=
  match previous with
  | some (c :: rest) => c :: rest
  | _ => new

/-- A text after a merge in which the earlier text wins. -/
def keepText (previous new : String) : String :=
  if previous.isEmpty then new else previous

/-- A text after a merge in which the new text wins. -/
def fillText (new previous : String) : String :=
  if new.isEmpty then previous else new

namespace Interface

/-- Takes the connections of an earlier interface over. -/
def keepConnections (new existing : Interface) : Interface where
  inputs := new.inputs.map fun v =>
    { v with connections :=
      Blueprint.keepConnections ((existing.variableNamed? v.name).map (·.connections)) v.connections }
  outputs := new.outputs.map fun o =>
    { o with connections :=
      Blueprint.keepConnections ((existing.outputNamed? o.name).map (·.connections)) o.connections }

/-- Takes the types of an earlier interface over for outputs without one. -/
def keepOutputTypes (new existing : Interface) : Interface :=
  { new with outputs := new.outputs.map fun o =>
      { o with type := o.type.or ((existing.outputNamed? o.name).bind (·.type)) } }

end Interface

namespace Info

/-- Takes the title of earlier information over, and what the new information leaves open. -/
def keep (new existing : Info) : Info where
  title := keepText existing.title new.title
  source := new.source.or existing.source
  version := fillText new.version existing.version
  actuationTool :=
    { new.actuationTool with
      version := fillText new.actuationTool.version existing.actuationTool.version }

end Info

namespace Metadata

/-- Takes the connections of an earlier document over. -/
def keepConnections (new existing : Metadata) : Metadata :=
  { new with spec.interfaces := new.spec.interfaces.keepConnections existing.spec.interfaces }

/-- Takes the output types of an earlier document over where the new one has none. -/
def keepOutputTypes (new existing : Metadata) : Metadata :=
  { new with spec.interfaces := new.spec.interfaces.keepOutputTypes existing.spec.interfaces }

/-- Takes the name, the labels and the general information of an earlier document over. -/
def keepInfo (new existing : Metadata) : Metadata :=
  { new with
    resource :=
      { name := keepText existing.resource.name new.resource.name
        labels := if new.resource.labels.isEmpty then existing.resource.labels
                  else new.resource.labels }
    spec.info := new.spec.info.keep existing.spec.info }

/-- A new document with everything that is kept of an earlier one. -/
def merge (new existing : Metadata) : Metadata :=
  ((new.keepConnections existing).keepOutputTypes existing).keepInfo existing

end Metadata
end Blueprint
