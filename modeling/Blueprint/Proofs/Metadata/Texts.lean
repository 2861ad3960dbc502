import Blueprint.Proofs.Metadata.Expressible
import Blueprint.Proofs.Value.Texts

/-!
# Documents with other texts

A document with another text in the place of each one (`Metadata.mapTexts`). Only the levels of
roles and the keys of labels and dynamic values stay. Its value is the value of the document with
the same texts replaced, since a text that is not empty is not left out.
-/

namespace Blueprint

variable {f : String → String}

/-! ## Replacing texts -/

def SortedMap.mapValues (f : String → String) (map : SortedMap String) : SortedMap String where
  entries := map.entries.map fun entry => (entry.1, f entry.2)
  ascending := by
    rw [AscendingKeys, List.pairwise_map]
    exact map.ascending

def Connection.mapTexts (f : String → String) (c : Connection) : Connection where
  source := { source := f c.source.source, version := f c.source.version }
  spec := { outputExpr := f c.spec.outputExpr, inputPath := c.spec.inputPath.map f }

def Variable.mapTexts (f : String → String) (v : Variable) : Variable :=
  { v with
    name := f v.name
    description := f v.description
    varType := f v.varType
    defaultValue := v.defaultValue.map (Value.mapTexts f)
    connections := v.connections.map (Connection.mapTexts f) }

def Output.mapTexts (f : String → String) (o : Output) : Output where
  name := f o.name
  description := f o.description
  type := o.type.map (Value.mapTexts f)
  connections := o.connections.map (Connection.mapTexts f)

def Interface.mapTexts (f : String → String) (i : Interface) : Interface where
  inputs := i.inputs.map (Variable.mapTexts f)
  outputs := i.outputs.map (Output.mapTexts f)

def RoleGrant.mapTexts (f : String → String) (g : RoleGrant) : RoleGrant :=
  { g with roles := g.roles.map f }

def ProviderVersion.mapTexts (f : String → String) (p : ProviderVersion) : ProviderVersion where
  source := f p.source
  version := f p.version

def Requirements.mapTexts (f : String → String) (r : Requirements) : Requirements where
  roles := r.roles.map (RoleGrant.mapTexts f)
  services := r.services.map f
  providerVersions := r.providerVersions.map (ProviderVersion.mapTexts f)

def Repository.mapTexts (f : String → String) (r : Repository) : Repository where
  repo := f r.repo
  sourceType := f r.sourceType
  dir := r.dir.map f

def ActuationTool.mapTexts (f : String → String) (t : ActuationTool) : ActuationTool where
  flavor := f t.flavor
  version := f t.version

def Info.mapTexts (f : String → String) (i : Info) : Info where
  title := f i.title
  source := i.source.map (Repository.mapTexts f)
  version := f i.version
  actuationTool := i.actuationTool.mapTexts f

def ResourceMeta.mapTexts (f : String → String) (r : ResourceMeta) : ResourceMeta where
  name := f r.name
  labels := r.labels.mapValues f

def MetadataSpec.mapTexts (f : String → String) (s : MetadataSpec) : MetadataSpec where
  info := s.info.mapTexts f
  interfaces := s.interfaces.mapTexts f
  requirements := s.requirements.mapTexts f

/-- The document with another text in the place of each one. -/
def Metadata.mapTexts (f : String → String) (m : Metadata) : Metadata where
  apiVersion := f m.apiVersion
  kind := f m.kind
  resource := m.resource.mapTexts f
  spec := m.spec.mapTexts f

/-! ## Fields -/

namespace Value

@[simp] theorem mapTexts_string (text : String) : (string text).mapTexts f = string (f text) := rfl

@[simp] theorem mapTexts_bool (b : Bool) : (bool b).mapTexts f = bool b := rfl

@[simp] theorem mapTexts_array (items : List Value) :
    (array items).mapTexts f = array (items.map (mapTexts f)) := by
  have each : mapTextsItems f items = items.map (mapTexts f) := by
    induction items with
    | nil => rfl
    | cons item rest ih => exact congrArg (_ :: ·) ih
  rw [mapTexts, each]

@[simp] theorem mapTexts_object (fields : List (String × Value)) :
    (object fields).mapTexts f = object (mapTextsFields f fields) := rfl

@[simp] theorem mapTextsFields_nil : mapTextsFields f [] = [] := rfl

@[simp] theorem mapTextsFields_cons (name : String) (value : Value)
    (rest : List (String × Value)) :
    mapTextsFields f ((name, value) :: rest) =
      (name, value.mapTexts f) :: mapTextsFields f rest := rfl

@[simp] theorem mapTextsFields_append (front back : List (String × Value)) :
    mapTextsFields f (front ++ back) = mapTextsFields f front ++ mapTextsFields f back := by
  induction front with
  | nil => rfl
  | cons field front ih => exact congrArg (_ :: ·) ih

@[simp] theorem mapTextsFields_map_string (entries : List (String × String)) :
    mapTextsFields f (entries.map fun entry => (entry.1, string entry.2)) =
      entries.map fun entry => (entry.1, string (f entry.2)) := by
  induction entries with
  | nil => rfl
  | cons entry rest ih => exact congrArg (_ :: ·) ih

@[simp] theorem mapTextsFields_optionalField (name : String) (value? : Option Value) :
    mapTextsFields f (optionalField name value?) =
      optionalField name (value?.map (mapTexts f)) := by
  cases value? <;> rfl

@[simp] theorem mapTextsFields_listField (name : String) (items : List Value) :
    mapTextsFields f (listField name items) = listField name (items.map (mapTexts f)) := by
  cases items <;> simp [listField]

private theorem mapTextsFields_textField (keepsEmpty : ∀ s : String, (f s).isEmpty = s.isEmpty)
    (name text : String) : mapTextsFields f (textField name text) = textField name (f text) := by
  rw [textField, textField, keepsEmpty]
  split <;> rfl

private theorem mapTexts_ofNat {n : Nat} (small : n < 18446744073709551616) :
    (ofNat n).mapTexts f = ofNat n := by
  have whole : Whole.ofNat? n = some ⟨n, by omega⟩ := dif_pos small
  rw [ofNat, whole]
  rfl

end Value

/-! ## Values -/

private theorem ResourceMeta.toValue_mapTexts (r : ResourceMeta) :
    (r.mapTexts f).toValue = r.toValue.mapTexts f := by
  simp only [toValue, mapTexts, SortedMap.mapValues, List.map_map, List.isEmpty_map]
  split <;> simp [Function.comp_def]

private theorem Requirements.toValue_mapTexts
    (levels : ∀ level : RoleLevel, f level.name = level.name)
    (r : Requirements) : (r.mapTexts f).toValue = r.toValue.mapTexts f := by
  simp [toValue, mapTexts, Function.comp_def, RoleGrant.toValue, RoleGrant.mapTexts, levels,
    ProviderVersion.toValue, ProviderVersion.mapTexts]

section ToValue

variable (keepsEmpty : ∀ s : String, (f s).isEmpty = s.isEmpty)
include keepsEmpty

private theorem Connection.toValue_mapTexts (c : Connection) :
    (c.mapTexts f).toValue = c.toValue.mapTexts f := by
  simp [toValue, mapTexts, Value.mapTextsFields_textField keepsEmpty, Function.comp_def]

private theorem Variable.toValue_mapTexts {v : Variable}
    (order : ∀ n ∈ v.order, n < 18446744073709551616) :
    (v.mapTexts f).toValue = v.toValue.mapTexts f := by
  -- A place stays unless it is so far behind that it is written as text.
  have places : (v.order.map Value.ofNat).map (Value.mapTexts f) = v.order.map Value.ofNat := by
    cases found : v.order with
    | none => rfl
    | some n => exact congrArg some (Value.mapTexts_ofNat (order n found))
  simp [toValue, mapTexts, Value.mapTextsFields_textField keepsEmpty, Function.comp_def, places,
    Connection.toValue_mapTexts keepsEmpty]

private theorem Output.toValue_mapTexts (o : Output) :
    (o.mapTexts f).toValue = o.toValue.mapTexts f := by
  simp [toValue, mapTexts, Value.mapTextsFields_textField keepsEmpty, Function.comp_def,
    Connection.toValue_mapTexts keepsEmpty]

private theorem Interface.toValue_mapTexts {i : Interface}
    (order : ∀ v ∈ i.inputs, ∀ n ∈ v.order, n < 18446744073709551616) :
    (i.mapTexts f).toValue = i.toValue.mapTexts f := by
  have inputs : i.inputs.map (fun v => (v.mapTexts f).toValue) =
      i.inputs.map fun v => v.toValue.mapTexts f :=
    List.map_congr_left fun v member => Variable.toValue_mapTexts keepsEmpty (order v member)
  simp [toValue, mapTexts, Function.comp_def, inputs, Output.toValue_mapTexts keepsEmpty]

private theorem Info.toValue_mapTexts (i : Info) :
    (i.mapTexts f).toValue = i.toValue.mapTexts f := by
  simp [toValue, mapTexts, Function.comp_def, Value.mapTextsFields_textField keepsEmpty,
    Repository.toValue, Repository.mapTexts, ActuationTool.toValue, ActuationTool.mapTexts]

/-- The value of a document with other texts is its value with other texts. -/
theorem Metadata.toValue_mapTexts (levels : ∀ level : RoleLevel, f level.name = level.name)
    {m : Metadata} (exact : m.Exact) : (m.mapTexts f).toValue = m.toValue.mapTexts f := by
  have order : ∀ v ∈ m.spec.interfaces.inputs, ∀ n ∈ v.order, n < 18446744073709551616 :=
    fun v member => (exact.inputs v member).order
  simp [toValue, mapTexts, MetadataSpec.toValue, MetadataSpec.mapTexts,
    ResourceMeta.toValue_mapTexts, Info.toValue_mapTexts keepsEmpty,
    Interface.toValue_mapTexts keepsEmpty order, Requirements.toValue_mapTexts levels]

end ToValue

/-! ## Exact documents -/

private theorem Value.Exact.mapTexts {value : Value} (exact : value.Exact) :
    (value.mapTexts f).Exact where
  floatFree := (floatFree_mapTexts value).mpr exact.floatFree
  canonical := (canonical_mapTexts value).mpr exact.canonical

/-- A document is as exact with other texts. -/
theorem Metadata.Exact.mapTexts {m : Metadata} (exact : m.Exact) : (m.mapTexts f).Exact where
  inputs := by
    rw [Metadata.mapTexts, MetadataSpec.mapTexts, Interface.mapTexts, List.forall_mem_map]
    refine fun v member => ⟨fun value isDefault => ?_, (exact.inputs v member).order⟩
    obtain ⟨former, found, rfl⟩ := Option.map_eq_some_iff.mp isDefault
    exact ((exact.inputs v member).default former found).mapTexts
  types := by
    rw [Metadata.mapTexts, MetadataSpec.mapTexts, Interface.mapTexts, List.forall_mem_map]
    intro o member value isType
    obtain ⟨former, found, rfl⟩ := Option.map_eq_some_iff.mp isType
    exact (exact.types o member former found).mapTexts

private theorem Value.isNull_mapTexts (value : Value) :
    (value.mapTexts f).isNull = value.isNull := by
  cases value <;> rfl

private theorem Value.unlessNull_map_mapTexts (value? : Option Value) :
    unlessNull (value?.map (mapTexts f)) = (unlessNull value?).map (mapTexts f) := by
  simp [unlessNull, Option.filter_map, Function.comp_def, isNull_mapTexts]

/-- The nulls of a document are where they are with other texts. -/
theorem Metadata.withoutNulls_mapTexts (m : Metadata) :
    (m.mapTexts f).withoutNulls = m.withoutNulls.mapTexts f := by
  simp [withoutNulls, mapTexts, MetadataSpec.mapTexts, Interface.withoutNulls, Interface.mapTexts,
    Function.comp_def, Variable.withoutNull, Variable.mapTexts, Output.withoutNull, Output.mapTexts,
    Value.unlessNull_map_mapTexts]

end Blueprint
