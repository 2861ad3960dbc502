import Blueprint.Metadata.Encode
import Blueprint.Proofs.Value

/-!
# Documents that texts can hold

Not every document survives being written: a default that is null reads as no default, and numbers
with a fraction are only approximated. `Metadata.Expressible` rules both out. `Metadata.Exact` only
rules out the numbers: such a document is read back as `Metadata.withoutNulls`, which is the
document itself if nothing in it is null. The value of either has whole numbers only.
-/

namespace Blueprint

namespace Value

/-- A dynamic value that a text can hold: something, without floating point numbers, and with the
keys of its objects in order. -/
structure Plain (value : Value) : Prop where
  notNull : value ≠ .null
  floatFree : value.FloatFree
  canonical : value.Canonical

/-- A dynamic value that is not approximated by its text, though it may be null. -/
structure Exact (value : Value) : Prop where
  floatFree : value.FloatFree
  canonical : value.Canonical

private theorem Plain.exact {value : Value} (plain : value.Plain) : value.Exact :=
  ⟨plain.floatFree, plain.canonical⟩

/-- What there is, unless it is null. -/
def unlessNull (value? : Option Value) : Option Value :=
  value?.filter fun value => !value.isNull

theorem unlessNull_of_notNull {value? : Option Value} (notNull : ∀ value ∈ value?, value ≠ .null) :
    unlessNull value? = value? := by
  cases value? with
  | none => rfl
  | some value =>
    cases value with
    | null => exact absurd rfl (notNull .null rfl)
    | _ => rfl

section FloatFree

variable {name : String}

@[simp] theorem floatFree_null : null.FloatFree := trivial

@[simp] theorem floatFree_whole (n : Whole) : (number (.whole n)).FloatFree := trivial

@[simp] theorem floatFree_string (s : String) : (string s).FloatFree := trivial

@[simp] theorem floatFree_bool (b : Bool) : (bool b).FloatFree := trivial

@[simp] theorem floatFree_array {items : List Value} :
    (array items).FloatFree ↔ ∀ item ∈ items, item.FloatFree :=
  floatFreeItems_iff

@[simp] theorem floatFree_object {fields : List (String × Value)} :
    (object fields).FloatFree ↔ FloatFreeFields fields := Iff.rfl

@[simp] theorem floatFreeFields_nil : FloatFreeFields [] := trivial

@[simp] theorem floatFreeFields_cons {value : Value} {rest : List (String × Value)} :
    FloatFreeFields ((name, value) :: rest) ↔ value.FloatFree ∧ FloatFreeFields rest := Iff.rfl

@[simp] theorem floatFreeFields_append {fields others : List (String × Value)} :
    FloatFreeFields (fields ++ others) ↔ FloatFreeFields fields ∧ FloatFreeFields others := by
  simp only [floatFreeFields_iff, List.forall_mem_append]

@[simp] theorem floatFreeFields_textField {text : String} :
    FloatFreeFields (textField name text) := by
  rw [textField]
  split <;> simp

@[simp] theorem floatFreeFields_optionalField {value? : Option Value} :
    FloatFreeFields (optionalField name value?) ↔ ∀ value ∈ value?, value.FloatFree := by
  cases value? <;> simp [optionalField]

@[simp] theorem floatFreeFields_listField {items : List Value} :
    FloatFreeFields (listField name items) ↔ ∀ item ∈ items, item.FloatFree := by
  cases items <;> simp [listField]

@[simp] theorem floatFree_ofNat (n : Nat) : (ofNat n).FloatFree := by
  rw [ofNat]
  split <;> simp

end FloatFree

end Value

/-- A variable that a text can hold: so can its default, and its place fits into 64 bits. -/
structure Variable.Expressible (v : Variable) : Prop where
  default : ∀ value ∈ v.defaultValue, value.Plain
  order : ∀ n ∈ v.order, n < 18446744073709551616

/-- A document that a text can hold. Only its dynamic values and places could be out of reach. -/
structure Metadata.Expressible (m : Metadata) : Prop where
  inputs : ∀ v ∈ m.spec.interfaces.inputs, v.Expressible
  types : ∀ o ∈ m.spec.interfaces.outputs, ∀ value ∈ o.type, value.Plain

/-- A variable that is not approximated by its text. -/
structure Variable.Exact (v : Variable) : Prop where
  default : ∀ value ∈ v.defaultValue, value.Exact
  order : ∀ n ∈ v.order, n < 18446744073709551616

/-- A document that is not approximated by its text, though a default may be null. -/
structure Metadata.Exact (m : Metadata) : Prop where
  inputs : ∀ v ∈ m.spec.interfaces.inputs, v.Exact
  types : ∀ o ∈ m.spec.interfaces.outputs, ∀ value ∈ o.type, value.Exact

theorem Metadata.Expressible.exact {m : Metadata} (expressible : m.Expressible) : m.Exact where
  inputs v member :=
    { default := fun value found => ((expressible.inputs v member).default value found).exact
      order := (expressible.inputs v member).order }
  types o member value found := (expressible.types o member value found).exact

/-! ## Nulls -/

/-- The variable as it is read back: a default that is null is no default. -/
def Variable.withoutNull (v : Variable) : Variable :=
  { v with defaultValue := Value.unlessNull v.defaultValue }

def Output.withoutNull (o : Output) : Output :=
  { o with type := Value.unlessNull o.type }

def Interface.withoutNulls (i : Interface) : Interface :=
  { inputs := i.inputs.map Variable.withoutNull, outputs := i.outputs.map Output.withoutNull }

/-- The document without the defaults and types that are null. -/
def Metadata.withoutNulls (m : Metadata) : Metadata :=
  { m with spec := { m.spec with interfaces := m.spec.interfaces.withoutNulls } }

private theorem Variable.withoutNull_eq_self {v : Variable}
    (notNull : ∀ value ∈ v.defaultValue, value ≠ .null) : v.withoutNull = v := by
  rw [withoutNull, Value.unlessNull_of_notNull notNull]

private theorem Output.withoutNull_eq_self {o : Output}
    (notNull : ∀ value ∈ o.type, value ≠ .null) : o.withoutNull = o := by
  rw [withoutNull, Value.unlessNull_of_notNull notNull]

private theorem Interface.withoutNulls_eq_self {i : Interface}
    (defaults : ∀ v ∈ i.inputs, ∀ value ∈ v.defaultValue, value ≠ .null)
    (types : ∀ o ∈ i.outputs, ∀ value ∈ o.type, value ≠ .null) : i.withoutNulls = i := by
  have inputs : i.inputs.map Variable.withoutNull = i.inputs.map id :=
    List.map_congr_left fun v member => Variable.withoutNull_eq_self (defaults v member)
  have outputs : i.outputs.map Output.withoutNull = i.outputs.map id :=
    List.map_congr_left fun o member => Output.withoutNull_eq_self (types o member)
  rw [withoutNulls, inputs, outputs, List.map_id, List.map_id]

/-- Nothing is lost of a document in which nothing is null. -/
theorem Metadata.withoutNulls_eq_self {m : Metadata}
    (defaults : ∀ v ∈ m.spec.interfaces.inputs, ∀ value ∈ v.defaultValue, value ≠ .null)
    (types : ∀ o ∈ m.spec.interfaces.outputs, ∀ value ∈ o.type, value ≠ .null) :
    m.withoutNulls = m := by
  rw [withoutNulls, Interface.withoutNulls_eq_self defaults types]

theorem Metadata.Expressible.withoutNulls {m : Metadata} (expressible : m.Expressible) :
    m.withoutNulls = m :=
  withoutNulls_eq_self
    (fun v member value found => ((expressible.inputs v member).default value found).notNull)
    fun o member value found => (expressible.types o member value found).notNull

/-! ## Whole numbers -/

@[simp] theorem Connection.floatFree_toValue (c : Connection) : c.toValue.FloatFree := by
  simp [toValue]

private theorem Variable.floatFree_toValue {v : Variable}
    (default : ∀ value ∈ v.defaultValue, value.FloatFree) : v.toValue.FloatFree := by
  simpa [toValue] using default

private theorem Output.floatFree_toValue {o : Output} (type : ∀ value ∈ o.type, value.FloatFree) :
    o.toValue.FloatFree := by
  simpa [toValue] using type

/-- The value of a document has whole numbers only if its dynamic values do. -/
theorem Metadata.Exact.floatFree {m : Metadata} (exact : m.Exact) : m.toValue.FloatFree := by
  -- Numbers occur in defaults and types and as places of variables, which are whole.
  have inputs : ∀ v ∈ m.spec.interfaces.inputs, v.toValue.FloatFree := fun v member =>
    Variable.floatFree_toValue fun value found =>
      ((exact.inputs v member).default value found).floatFree
  have outputs : ∀ o ∈ m.spec.interfaces.outputs, o.toValue.FloatFree := fun o member =>
    Output.floatFree_toValue fun value found => (exact.types o member value found).floatFree
  have labels : Value.FloatFreeFields
      (m.resource.labels.entries.map fun label => (label.1, Value.string label.2)) := by
    rw [Value.floatFreeFields_iff, List.forall_mem_map]
    exact fun _ _ => trivial
  have resource : m.resource.toValue.FloatFree := by
    simp only [ResourceMeta.toValue]
    split <;> simp [labels]
  simpa [toValue, MetadataSpec.toValue, Info.toValue, Repository.toValue, ActuationTool.toValue,
    Interface.toValue, Requirements.toValue, RoleGrant.toValue, ProviderVersion.toValue, resource]
    using And.intro inputs outputs

theorem Metadata.Expressible.floatFree {m : Metadata} (expressible : m.Expressible) :
    m.toValue.FloatFree :=
  expressible.exact.floatFree

end Blueprint
