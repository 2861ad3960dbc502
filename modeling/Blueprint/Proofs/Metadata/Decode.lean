import Blueprint.Metadata.Decode
import Blueprint.Proofs.Metadata.Expressible
import Blueprint.Proofs.Metadata.Fields
import Blueprint.Proofs.Results

/-!
# Documents read from the trees of their values

The writer of a record and its reader agree field by field. What they need from a format is that the
trees of values answer the questions of readers faithfully (`Accessors.Faithful`); everything else
holds for every format. A tree is read to a limited depth, and the nesting of the value says how
much of it is used up.
-/

namespace Blueprint

namespace Accessors

variable {ν α β : Type} {a : Accessors ν} {treeOf : Nat → Value → ν}

/-- Trees of values answer as the values would; `treeOf depth value` is the tree of a value from
which `depth` levels may be read. -/
structure Faithful (a : Accessors ν) (treeOf : Nat → Value → ν) : Prop where
  record {depth : Nat} {names : List String} {fields : List (String × Value)}
    (distinct : (fields.map Prod.fst).Nodup) :
    a.record? names (treeOf (depth + 1) (.object fields)) =
      some (names.map fun name => (fields.lookup name).map (treeOf depth))
  items {depth : Nat} {items : List Value} :
    a.items? (treeOf (depth + 1) (.array items)) = some (items.map (treeOf depth))
  entries {depth : Nat} {fields : List (String × Value)} :
    a.entries? (treeOf (depth + 1) (.object fields)) =
      some (fields.map fun field => (field.1, treeOf depth field.2))
  text {depth : Nat} {s : String} : a.text? (treeOf depth (.string s)) = some s
  bool {depth : Nat} {b : Bool} : a.bool? (treeOf depth (.bool b)) = some b
  count {depth n : Nat} (small : n < 18446744073709551616) :
    a.count? (treeOf depth (.ofNat n)) = some n
  value {depth : Nat} {value : Value} (exact : value.Exact) (shallow : value.nesting ≤ depth) :
    a.value? (treeOf depth value) = some value
  choice {depth : Nat} {name : String} : a.choice? (treeOf depth (.string name)) = some name
  present {depth : Nat} {value : Value} (notNull : value ≠ .null) :
    a.present? (treeOf depth value) = some (some (treeOf depth value))
  absent {depth : Nat} : a.present? (treeOf depth .null) = some none

@[simp] theorem field_some {default : α} {decode : ν → Option α} {tree : ν} :
    field default decode (some tree) = decode tree := rfl

namespace Faithful

variable (faithful : a.Faithful treeOf)
include faithful

/-- A record is found with the fields that it was written from, present or not. -/
private theorem record_present {fields : List (String × Option Value)}
    (distinct : (fields.map Prod.fst).Nodup) {depth : Nat}
    (shallow : (Value.object (Value.present fields)).nesting ≤ depth) :
    ∃ inner, (∀ field ∈ fields, ∀ value ∈ field.2, value.nesting ≤ inner) ∧
      a.record? (fields.map Prod.fst) (treeOf depth (.object (Value.present fields))) =
        some (fields.map fun field => field.2.map (treeOf inner)) := by
  obtain ⟨inner, rfl, bounds⟩ := Value.exists_inner shallow
  refine ⟨inner, Value.nesting_present_le_iff.mp bounds, ?_⟩
  -- The reader asks for all names; those of absent fields are not found.
  rw [faithful.record (Value.nodup_present distinct), List.map_map]
  refine congrArg some (List.map_congr_left fun field member => ?_)
  have found : (field.1, field.2) ∈ fields := member
  rw [Function.comp_apply, Value.lookup_present distinct found]

private theorem textField_ofText {depth : Nat} {text : String} :
    a.textField ((Value.ofText text).map (treeOf depth)) = some text := by
  rw [Value.ofText]
  split
  · rename_i empty
    rw [String.isEmpty_iff.mp empty]
    rfl
  · exact faithful.text

@[simp] theorem textField_string {depth : Nat} {text : String} :
    a.textField (some (treeOf depth (.string text))) = some text :=
  faithful.text

/-- What may be absent is read back if it is written as something that is not null. -/
private theorem optional_map {decode : ν → Option α} {encode : α → Value} {x? : Option α}
    {depth : Nat}
    (notNull : ∀ x ∈ x?, encode x ≠ .null)
    (reads : ∀ x ∈ x?, decode (treeOf depth (encode x)) = some x) :
    Accessors.field none (a.optional decode) ((x?.map encode).map (treeOf depth)) = some x? := by
  cases x? with
  | none => rfl
  | some x =>
    have present := @faithful.present depth _ (notNull x rfl)
    simp [field, optional, present, reads x rfl]

private theorem optional_text {text? : Option String} {depth : Nat} :
    field none (a.optional a.text?) ((text?.map .string).map (treeOf depth)) = some text? :=
  faithful.optional_map (fun _ _ => Value.noConfusion) fun _ _ => faithful.text

/-- What is null is read back as if it were absent. -/
private theorem optional_value {value? : Option Value} {depth : Nat}
    (exact : ∀ value ∈ value?, value.Exact) (shallow : ∀ value ∈ value?, value.nesting ≤ depth) :
    field none (a.optional a.value?) (value?.map (treeOf depth)) =
      some (Value.unlessNull value?) := by
  cases value? with
  | none => rfl
  | some value =>
    have read := faithful.value (exact value rfl) (shallow value rfl)
    by_cases isNull : value = .null
    · subst isNull
      have dropped : Value.unlessNull (some .null) = none := rfl
      simp [field, optional, faithful.absent, dropped]
    · have kept : Value.unlessNull (some value) = some value :=
        Value.unlessNull_of_notNull (by simpa using isNull)
      simp [field, optional, faithful.present isNull, read, kept]

private theorem optional_count {n? : Option Nat} (depth : Nat)
    (small : ∀ n ∈ n?, n < 18446744073709551616) :
    field none (a.optional a.count?) ((n?.map .ofNat).map (treeOf depth)) = some n? := by
  have notNull (n : Nat) : Value.ofNat n ≠ .null := by
    rw [Value.ofNat]
    split <;> exact Value.noConfusion
  exact faithful.optional_map (fun n _ => notNull n) fun n member => faithful.count (small n member)

/-- A list is read back as its items are. -/
private theorem list_array {decode : ν → Option β} {encode : α → Value} {kept : α → β} {xs : List α}
    {depth : Nat} (shallow : (Value.array (xs.map encode)).nesting ≤ depth)
    (reads : ∀ x ∈ xs, ∀ inner, (encode x).nesting ≤ inner →
      decode (treeOf inner (encode x)) = some (kept x)) :
    a.list decode (treeOf depth (.array (xs.map encode))) = some (xs.map kept) := by
  obtain ⟨inner, rfl, bounds⟩ := Value.exists_inner shallow
  have bounds := Value.nestingItems_le_iff.mp bounds
  rw [list, faithful.items, Option.bind_some, List.map_map, List.mapM_map]
  exact mapM_eq_some_map fun x member =>
    reads x member inner (bounds (encode x) (List.mem_map_of_mem member))

private theorem listField_map {decode : ν → Option β} {encode : α → Value} {kept : α → β}
    {xs : List α}
    {depth : Nat} (shallow : ∀ value ∈ Value.ofItems (xs.map encode), value.nesting ≤ depth)
    (reads : ∀ x ∈ xs, ∀ inner, (encode x).nesting ≤ inner →
      decode (treeOf inner (encode x)) = some (kept x)) :
    field [] (a.list decode) ((Value.ofItems (xs.map encode)).map (treeOf depth)) =
      some (xs.map kept) := by
  cases xs with
  | nil => rfl
  | cons x rest => exact faithful.list_array (shallow _ rfl) reads

private theorem listField_ofItems {decode : ν → Option α} {encode : α → Value} {xs : List α}
    {depth : Nat}
    (shallow : ∀ value ∈ Value.ofItems (xs.map encode), value.nesting ≤ depth)
    (reads : ∀ x ∈ xs, ∀ inner, (encode x).nesting ≤ inner →
      decode (treeOf inner (encode x)) = some x) :
    field [] (a.list decode) ((Value.ofItems (xs.map encode)).map (treeOf depth)) = some xs := by
  have read := @listField_map _ _ _ _ _ faithful decode encode id xs depth shallow reads
  rwa [List.map_id] at read

private theorem list_texts {texts : List String} {depth : Nat}
    (shallow : (Value.array (texts.map .string)).nesting ≤ depth) :
    a.list a.text? (treeOf depth (.array (texts.map .string))) = some texts := by
  have read := @list_array _ _ _ _ _ faithful a.text? Value.string id texts depth shallow
    fun _ _ _ _ => faithful.text
  rwa [List.map_id] at read

/-- Entries are read back into the map that they were written from. -/
private theorem mapField_ofEntries {texts : SortedMap String} {depth : Nat}
    (shallow : ∀ value ∈ Value.ofEntries (texts.entries.map fun entry => (entry.1, .string entry.2)),
      value.nesting ≤ depth) :
    field .empty (a.map a.text?) ((Value.ofEntries (texts.entries.map fun entry =>
      (entry.1, .string entry.2))).map (treeOf depth)) = some texts := by
  rw [Value.ofEntries] at shallow ⊢
  split
  · rename_i noEntries
    have empty : texts.entries = [] := by simpa using noEntries
    cases texts with
    | mk entries ascending => cases empty; rfl
  · rename_i someEntries
    obtain ⟨inner, rfl, -⟩ := Value.exists_inner (shallow _ (if_neg someEntries))
    rw [Option.map_some, field_some, map, faithful.entries, Option.bind_some, List.map_map,
      mapM_map_eq_some fun entry _ => by simp [faithful.text], Option.map_some,
      SortedMap.ofList_entries]

end Faithful
end Accessors

private theorem RoleLevel.ofName?_name (level : RoleLevel) : ofName? level.name = some level := by
  cases level <;> rfl

/-! ## Records -/

variable {ν : Type} {a : Accessors ν} {treeOf : Nat → Value → ν}
variable (faithful : a.Faithful treeOf)
include faithful

private theorem ConnectionSource.decode_present {s : ConnectionSource} {depth : Nat}
    (shallow : (Value.object (Value.present s.fields)).nesting ≤ depth) :
    decode a (treeOf depth (.object (Value.present s.fields))) = some s := by
  obtain ⟨inner, -, read⟩ := faithful.record_present (by simp [fields]) shallow
  simp only [fields, List.map_cons, List.map_nil] at read ⊢
  rw [decode, read]
  simp [faithful.textField_string, faithful.textField_ofText]

private theorem ConnectionSpec.decode_present {s : ConnectionSpec} {depth : Nat}
    (shallow : (Value.object (Value.present s.fields)).nesting ≤ depth) :
    decode a (treeOf depth (.object (Value.present s.fields))) = some s := by
  obtain ⟨inner, -, read⟩ := faithful.record_present (by simp [fields]) shallow
  simp only [fields, List.map_cons, List.map_nil] at read ⊢
  rw [decode, read]
  simp [-Option.map_map, faithful.textField_string, faithful.optional_text]

private theorem Connection.decode_toValue {c : Connection} {depth : Nat}
    (shallow : c.toValue.nesting ≤ depth) : decode a (treeOf depth c.toValue) = some c := by
  rw [toValue_eq_present] at shallow ⊢
  obtain ⟨inner, bounds, read⟩ := faithful.record_present (by simp [fields]) shallow
  simp only [fields, List.map_cons, List.map_nil, List.forall_mem_cons] at read bounds ⊢
  rw [decode, read]
  obtain ⟨source, spec, -⟩ := bounds
  simp [ConnectionSource.decode_present faithful (source _ rfl),
    ConnectionSpec.decode_present faithful (spec _ rfl)]

private theorem Variable.decode_toValue {v : Variable} {depth : Nat} (exact : v.Exact)
    (shallow : v.toValue.nesting ≤ depth) :
    decode a (treeOf depth v.toValue) = some v.withoutNull := by
  rw [toValue_eq_present] at shallow ⊢
  obtain ⟨inner, bounds, read⟩ := faithful.record_present (by simp [fields]) shallow
  simp only [fields, List.map_cons, List.map_nil, List.forall_mem_cons] at read bounds ⊢
  rw [decode, read]
  obtain ⟨-, -, -, default, -, -, connections, -⟩ := bounds
  have defaultValue := faithful.optional_value exact.default default
  have order := faithful.optional_count inner exact.order
  have connections := faithful.listField_ofItems connections
    fun c _ inner shallow => Connection.decode_toValue faithful shallow
  simp [-Option.map_map, faithful.textField_string, faithful.textField_ofText, defaultValue, order,
    connections, faithful.bool, withoutNull]

private theorem Output.decode_toValue {o : Output} {depth : Nat}
    (exact : ∀ value ∈ o.type, value.Exact)
    (shallow : o.toValue.nesting ≤ depth) :
    decode a (treeOf depth o.toValue) = some o.withoutNull := by
  rw [toValue_eq_present] at shallow ⊢
  obtain ⟨inner, bounds, read⟩ := faithful.record_present (by simp [fields]) shallow
  simp only [fields, List.map_cons, List.map_nil, List.forall_mem_cons] at read bounds ⊢
  rw [decode, read]
  obtain ⟨-, -, type, connections, -⟩ := bounds
  have type := faithful.optional_value exact type
  have connections := faithful.listField_ofItems connections
    fun c _ inner shallow => Connection.decode_toValue faithful shallow
  simp [-Option.map_map, faithful.textField_string, faithful.textField_ofText, type, connections,
    withoutNull]

private theorem Interface.decode_toValue {i : Interface} {depth : Nat}
    (inputs : ∀ v ∈ i.inputs, v.Exact) (types : ∀ o ∈ i.outputs, ∀ value ∈ o.type, value.Exact)
    (shallow : i.toValue.nesting ≤ depth) :
    decode a (treeOf depth i.toValue) = some i.withoutNulls := by
  rw [toValue_eq_present] at shallow ⊢
  obtain ⟨inner, bounds, read⟩ := faithful.record_present (by simp [fields]) shallow
  simp only [fields, List.map_cons, List.map_nil, List.forall_mem_cons] at read bounds ⊢
  rw [decode, read]
  obtain ⟨inputBounds, outputBounds, -⟩ := bounds
  have readInputs := faithful.listField_map inputBounds
    fun v member inner shallow => Variable.decode_toValue faithful (inputs v member) shallow
  have readOutputs := faithful.listField_map outputBounds
    fun o member inner shallow => Output.decode_toValue faithful (types o member) shallow
  simp [-Option.map_map, readInputs, readOutputs, withoutNulls]

private theorem RoleGrant.decode_toValue {g : RoleGrant} {depth : Nat}
    (shallow : g.toValue.nesting ≤ depth) : decode a (treeOf depth g.toValue) = some g := by
  rw [toValue_eq_present] at shallow ⊢
  obtain ⟨inner, bounds, read⟩ := faithful.record_present (by simp [fields]) shallow
  simp only [fields, List.map_cons, List.map_nil, List.forall_mem_cons] at read bounds ⊢
  rw [decode, read]
  obtain ⟨-, roles, -⟩ := bounds
  simp [faithful.choice, RoleLevel.ofName?_name, faithful.list_texts (roles _ rfl)]

private theorem ProviderVersion.decode_toValue {p : ProviderVersion} {depth : Nat}
    (shallow : p.toValue.nesting ≤ depth) : decode a (treeOf depth p.toValue) = some p := by
  rw [toValue_eq_present] at shallow ⊢
  obtain ⟨inner, -, read⟩ := faithful.record_present (by simp [fields]) shallow
  simp only [fields, List.map_cons, List.map_nil] at read ⊢
  rw [decode, read]
  simp [faithful.text]

private theorem Requirements.decode_toValue {r : Requirements} {depth : Nat}
    (shallow : r.toValue.nesting ≤ depth) : decode a (treeOf depth r.toValue) = some r := by
  rw [toValue_eq_present] at shallow ⊢
  obtain ⟨inner, bounds, read⟩ := faithful.record_present (by simp [fields]) shallow
  simp only [fields, List.map_cons, List.map_nil, List.forall_mem_cons] at read bounds ⊢
  rw [decode, read]
  obtain ⟨roles, services, providerVersions, -⟩ := bounds
  have roles := faithful.listField_ofItems roles
    fun g _ inner shallow => RoleGrant.decode_toValue faithful shallow
  have services := faithful.listField_ofItems services fun _ _ _ _ => faithful.text
  have providerVersions := faithful.listField_ofItems providerVersions
    fun p _ inner shallow => ProviderVersion.decode_toValue faithful shallow
  simp [-Option.map_map, roles, services, providerVersions]

private theorem Repository.decode_toValue {r : Repository} {depth : Nat}
    (shallow : r.toValue.nesting ≤ depth) : decode a (treeOf depth r.toValue) = some r := by
  rw [toValue_eq_present] at shallow ⊢
  obtain ⟨inner, -, read⟩ := faithful.record_present (by simp [fields]) shallow
  simp only [fields, List.map_cons, List.map_nil] at read ⊢
  rw [decode, read]
  simp [-Option.map_map, faithful.textField_string, faithful.optional_text]

private theorem ActuationTool.decode_toValue {t : ActuationTool} {depth : Nat}
    (shallow : t.toValue.nesting ≤ depth) : decode a (treeOf depth t.toValue) = some t := by
  rw [toValue_eq_present] at shallow ⊢
  obtain ⟨inner, -, read⟩ := faithful.record_present (by simp [fields]) shallow
  simp only [fields, List.map_cons, List.map_nil] at read ⊢
  rw [decode, read]
  simp [faithful.text, faithful.textField_ofText]

private theorem Info.decode_toValue {i : Info} {depth : Nat}
    (shallow : i.toValue.nesting ≤ depth) : decode a (treeOf depth i.toValue) = some i := by
  rw [toValue_eq_present] at shallow ⊢
  obtain ⟨inner, bounds, read⟩ := faithful.record_present (by simp [fields]) shallow
  simp only [fields, List.map_cons, List.map_nil, List.forall_mem_cons] at read bounds ⊢
  rw [decode, read]
  obtain ⟨-, sourceBounds, -, toolBounds, -⟩ := bounds
  have notNull : ∀ r ∈ i.source, r.toValue ≠ .null := fun _ _ => Value.noConfusion
  have readSource := faithful.optional_map notNull fun r member =>
    Repository.decode_toValue faithful (sourceBounds _ (Option.mem_map_of_mem _ member))
  have readTool := ActuationTool.decode_toValue faithful (toolBounds _ rfl)
  simp [-Option.map_map, faithful.textField_ofText, readSource, readTool]

private theorem ResourceMeta.decode_toValue {r : ResourceMeta} {depth : Nat}
    (shallow : r.toValue.nesting ≤ depth) : decode a (treeOf depth r.toValue) = some r := by
  rw [toValue_eq_present] at shallow ⊢
  obtain ⟨inner, bounds, read⟩ := faithful.record_present (by simp [fields]) shallow
  simp only [fields, List.map_cons, List.map_nil, List.forall_mem_cons] at read bounds ⊢
  rw [decode, read]
  obtain ⟨-, labelBounds, -⟩ := bounds
  simp [faithful.textField_string, faithful.mapField_ofEntries labelBounds]

private theorem MetadataSpec.decode_toValue {s : MetadataSpec} {depth : Nat}
    (inputs : ∀ v ∈ s.interfaces.inputs, v.Exact)
    (types : ∀ o ∈ s.interfaces.outputs, ∀ value ∈ o.type, value.Exact)
    (shallow : s.toValue.nesting ≤ depth) :
    decode a (treeOf depth s.toValue) = some { s with interfaces := s.interfaces.withoutNulls } := by
  rw [toValue_eq_present] at shallow ⊢
  obtain ⟨inner, bounds, read⟩ := faithful.record_present (by simp [fields]) shallow
  simp only [fields, List.map_cons, List.map_nil, List.forall_mem_cons] at read bounds ⊢
  rw [decode, read]
  obtain ⟨infoBounds, interfaceBounds, requirementBounds, -⟩ := bounds
  simp [Info.decode_toValue faithful (infoBounds _ rfl),
    Interface.decode_toValue faithful inputs types (interfaceBounds _ rfl),
    Requirements.decode_toValue faithful (requirementBounds _ rfl)]

/-- A document is read back from the tree of its value, apart from what is null. -/
theorem Metadata.decode_toValue {m : Metadata} {depth : Nat} (exact : m.Exact)
    (shallow : m.toValue.nesting ≤ depth) :
    decode a (treeOf depth m.toValue) = some m.withoutNulls := by
  rw [toValue_eq_present] at shallow ⊢
  obtain ⟨inner, bounds, read⟩ := faithful.record_present (by simp [fields]) shallow
  simp only [fields, List.map_cons, List.map_nil, List.forall_mem_cons] at read bounds ⊢
  rw [decode, read]
  obtain ⟨-, -, resourceBounds, specBounds, -⟩ := bounds
  simp [faithful.text, ResourceMeta.decode_toValue faithful (resourceBounds _ rfl),
    MetadataSpec.decode_toValue faithful exact.inputs exact.types (specBounds _ rfl), withoutNulls]

end Blueprint
