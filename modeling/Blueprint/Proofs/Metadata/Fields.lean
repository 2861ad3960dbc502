import Blueprint.Metadata.Encode
import Blueprint.Proofs.Value

/-!
# The fields of records

Every record is written as an object of those of its fields that are there. The list of all fields,
present or not, is what its reader asks for, so that reader and writer can be compared field by
field.
-/

namespace Blueprint

namespace Value

/-- The fields that are there. -/
def present (fields : List (String × Option Value)) : List (String × Value) :=
  fields.filterMap fun field => field.2.map fun value => (field.1, value)

/-- Text that is left out when it is empty. -/
def ofText (text : String) : Option Value :=
  if text.isEmpty then none else some (string text)

/-- A list that is left out when it is empty. -/
def ofItems : List Value → Option Value
  | [] => none
  | items => some (array items)

/-- A map that is left out when it is empty. -/
def ofEntries (entries : List (String × Value)) : Option Value :=
  if entries.isEmpty then none else some (object entries)

@[simp] theorem present_nil : present [] = [] := rfl

@[simp] theorem present_cons (name : String) (value? : Option Value)
    (fields : List (String × Option Value)) :
    present ((name, value?) :: fields) = optionalField name value? ++ present fields := by
  cases value? <;> rfl

@[simp] theorem optionalField_some (name : String) (value : Value) :
    optionalField name (some value) = [(name, value)] := rfl

@[simp] theorem optionalField_ofText (name text : String) :
    optionalField name (ofText text) = textField name text := by
  rw [ofText, textField]
  split <;> rfl

@[simp] theorem optionalField_ofItems (name : String) (items : List Value) :
    optionalField name (ofItems items) = listField name items := by
  cases items <;> rfl

private theorem mem_present {fields : List (String × Option Value)} {name : String}
    {value : Value} :
    (name, value) ∈ present fields ↔ (name, some value) ∈ fields := by
  constructor
  · intro member
    obtain ⟨⟨first, value?⟩, isField, found⟩ := List.mem_filterMap.mp member
    obtain ⟨value, rfl, same⟩ := Option.map_eq_some_iff.mp found
    obtain ⟨rfl, rfl⟩ := Prod.mk.inj same
    exact isField
  · intro member
    exact List.mem_filterMap.mpr ⟨_, member, rfl⟩

/-- No name is repeated among the fields that are there. -/
theorem nodup_present {fields : List (String × Option Value)}
    (distinct : (fields.map Prod.fst).Nodup) : ((present fields).map Prod.fst).Nodup := by
  induction fields with
  | nil => exact .nil
  | cons head rest ih =>
    obtain ⟨fresh, othersDistinct⟩ := List.nodup_cons.mp distinct
    obtain ⟨name, _ | value⟩ := head
    · exact ih othersDistinct
    · refine List.nodup_cons.mpr ⟨fun member => ?_, ih othersDistinct⟩
      obtain ⟨field, found, rfl⟩ := List.mem_map.mp member
      exact fresh (List.mem_map.mpr ⟨_, mem_present.mp found, rfl⟩)

/-- A field is found among those that are there when no name is repeated. -/
theorem lookup_present {fields : List (String × Option Value)}
    (distinct : (fields.map Prod.fst).Nodup) {name : String} {value? : Option Value}
    (member : (name, value?) ∈ fields) : (present fields).lookup name = value? := by
  induction fields with
  | nil => contradiction
  | cons head rest ih =>
    obtain ⟨first, first?⟩ := head
    obtain ⟨fresh, othersDistinct⟩ := List.nodup_cons.mp distinct
    -- A field that is absent must not be found under the name of another one.
    have absent : (present rest).lookup first = none := by
      refine lookup_eq_none_of_fresh fun named => ?_
      obtain ⟨field, found, rfl⟩ := List.mem_map.mp named
      exact fresh (List.mem_map.mpr ⟨_, mem_present.mp found, rfl⟩)
    rw [present_cons, List.lookup_append]
    rcases List.mem_cons.mp member with same | behind
    · obtain ⟨rfl, rfl⟩ := Prod.mk.inj same
      cases value? with
      | none => simpa [optionalField] using absent
      | some value => simp
    · have named : name ∈ rest.map Prod.fst := List.mem_map.mpr ⟨_, behind, rfl⟩
      have different : name ≠ first := fun same => fresh (same ▸ named)
      cases first? with
      | none => simpa [optionalField] using ih othersDistinct behind
      | some value =>
        simpa [List.lookup_cons, beq_false_of_ne different] using ih othersDistinct behind

theorem nesting_present_le_iff {fields : List (String × Option Value)} {depth : Nat} :
    nestingFields (present fields) ≤ depth ↔
      ∀ field ∈ fields, ∀ value ∈ field.2, value.nesting ≤ depth := by
  rw [nestingFields_le_iff]
  constructor
  · intro bounds field member value found
    exact bounds (field.1, value) (mem_present.mpr (by rw [← found]; exact member))
  · intro bounds field member
    exact bounds (field.1, some field.2) (mem_present.mp member) field.2 rfl

end Value

def ConnectionSource.fields (s : ConnectionSource) : List (String × Option Value) :=
  [("source", some (.string s.source)), ("version", Value.ofText s.version)]

def ConnectionSpec.fields (s : ConnectionSpec) : List (String × Option Value) :=
  [("outputExpr", some (.string s.outputExpr)), ("inputPath", s.inputPath.map .string)]

def Connection.fields (c : Connection) : List (String × Option Value) :=
  [("source", some (.object (Value.present c.source.fields))),
   ("spec", some (.object (Value.present c.spec.fields)))]

theorem Connection.toValue_eq_present (c : Connection) :
    c.toValue = .object (Value.present c.fields) := by
  simp [toValue, fields, ConnectionSource.fields, ConnectionSpec.fields]

def Variable.fields (v : Variable) : List (String × Option Value) :=
  [("name", some (.string v.name)), ("description", Value.ofText v.description),
   ("varType", Value.ofText v.varType), ("defaultValue", v.defaultValue),
   ("required", some (.bool v.required)), ("order", v.order.map Value.ofNat),
   ("connections", Value.ofItems (v.connections.map Connection.toValue))]

theorem Variable.toValue_eq_present (v : Variable) :
    v.toValue = .object (Value.present v.fields) := by
  simp [toValue, fields]

def Output.fields (o : Output) : List (String × Option Value) :=
  [("name", some (.string o.name)), ("description", Value.ofText o.description), ("type", o.type),
   ("connections", Value.ofItems (o.connections.map Connection.toValue))]

theorem Output.toValue_eq_present (o : Output) : o.toValue = .object (Value.present o.fields) := by
  simp [toValue, fields]

def Interface.fields (i : Interface) : List (String × Option Value) :=
  [("variables", Value.ofItems (i.inputs.map Variable.toValue)),
   ("outputs", Value.ofItems (i.outputs.map Output.toValue))]

theorem Interface.toValue_eq_present (i : Interface) :
    i.toValue = .object (Value.present i.fields) := by
  simp [toValue, fields]

def RoleGrant.fields (g : RoleGrant) : List (String × Option Value) :=
  [("level", some (.string g.level.name)), ("roles", some (.array (g.roles.map .string)))]

theorem RoleGrant.toValue_eq_present (g : RoleGrant) :
    g.toValue = .object (Value.present g.fields) := rfl

def ProviderVersion.fields (p : ProviderVersion) : List (String × Option Value) :=
  [("source", some (.string p.source)), ("version", some (.string p.version))]

theorem ProviderVersion.toValue_eq_present (p : ProviderVersion) :
    p.toValue = .object (Value.present p.fields) := rfl

def Requirements.fields (r : Requirements) : List (String × Option Value) :=
  [("roles", Value.ofItems (r.roles.map RoleGrant.toValue)),
   ("services", Value.ofItems (r.services.map .string)),
   ("providerVersions", Value.ofItems (r.providerVersions.map ProviderVersion.toValue))]

theorem Requirements.toValue_eq_present (r : Requirements) :
    r.toValue = .object (Value.present r.fields) := by
  simp [toValue, fields]

def Repository.fields (r : Repository) : List (String × Option Value) :=
  [("repo", some (.string r.repo)), ("sourceType", some (.string r.sourceType)),
   ("dir", r.dir.map .string)]

theorem Repository.toValue_eq_present (r : Repository) :
    r.toValue = .object (Value.present r.fields) := by
  simp [toValue, fields]

def ActuationTool.fields (t : ActuationTool) : List (String × Option Value) :=
  [("flavor", some (.string t.flavor)), ("version", Value.ofText t.version)]

theorem ActuationTool.toValue_eq_present (t : ActuationTool) :
    t.toValue = .object (Value.present t.fields) := by
  simp [toValue, fields]

def Info.fields (i : Info) : List (String × Option Value) :=
  [("title", Value.ofText i.title), ("source", i.source.map Repository.toValue),
   ("version", Value.ofText i.version), ("actuationTool", some i.actuationTool.toValue)]

theorem Info.toValue_eq_present (i : Info) : i.toValue = .object (Value.present i.fields) := by
  simp [toValue, fields]

def ResourceMeta.fields (r : ResourceMeta) : List (String × Option Value) :=
  [("name", some (.string r.name)), ("labels", Value.ofEntries (r.labels.entries.map fun entry =>
    (entry.1, .string entry.2)))]

theorem ResourceMeta.toValue_eq_present (r : ResourceMeta) :
    r.toValue = .object (Value.present r.fields) := by
  simp only [toValue, fields, Value.present_cons, Value.ofEntries]
  split <;> rfl

def MetadataSpec.fields (s : MetadataSpec) : List (String × Option Value) :=
  [("info", some s.info.toValue), ("interfaces", some s.interfaces.toValue),
   ("requirements", some s.requirements.toValue)]

theorem MetadataSpec.toValue_eq_present (s : MetadataSpec) :
    s.toValue = .object (Value.present s.fields) := rfl

def Metadata.fields (m : Metadata) : List (String × Option Value) :=
  [("apiVersion", some (.string m.apiVersion)), ("kind", some (.string m.kind)),
   ("metadata", some m.resource.toValue), ("spec", some m.spec.toValue)]

theorem Metadata.toValue_eq_present (m : Metadata) :
    m.toValue = .object (Value.present m.fields) := rfl

end Blueprint
