import Blueprint.Metadata.Decode
import Blueprint.Proofs.Metadata.Expressible
import Blueprint.Proofs.Metadata.Fields
import Blueprint.Proofs.Results

/-!
# What readers accept

Whatever tree a document is read from, its dynamic values have their keys in order, its places fit
into 64 bits, and nothing of it nests deeper than the tree was allowed to. So the tree of a document
that was read can be read again.
-/

namespace Blueprint

namespace Accessors

variable {ν α : Type} {a : Accessors ν} {depthOf : ν → Nat} {possible : Value → Prop}

/-- What is found inside a tree may be read less deep than the tree, and a value that is there is
one of the possible ones and stays within what may be read. -/
structure Sound (a : Accessors ν) (depthOf : ν → Nat) (possible : Value → Prop) : Prop where
  record {names : List String} {tree : ν} {found : List (Option ν)}
    (read : a.record? names tree = some found) :
    ∀ child? ∈ found, ∀ child ∈ child?, depthOf child < depthOf tree
  items {tree : ν} {found : List ν} (read : a.items? tree = some found) :
    ∀ child ∈ found, depthOf child < depthOf tree
  present {tree inner : ν} (read : a.present? tree = some (some inner)) : inner = tree
  count {tree : ν} {n : Nat} (read : a.count? tree = some n) : n < 18446744073709551616
  value {tree : ν} {value : Value} (isPresent : a.present? tree = some (some tree))
    (read : a.value? tree = some value) : value.Within (depthOf tree) ∧ possible value

/-- A field has its default or was read. -/
private theorem field_eq_some {default x : α} {decode : ν → Option α} {tree? : Option ν}
    (read : field default decode tree? = some x) :
    x = default ∨ ∃ tree ∈ tree?, decode tree = some x := by
  cases tree? with
  | none =>
    cases read
    exact .inl rfl
  | some tree => exact .inr ⟨tree, rfl, read⟩

namespace Sound

variable (sound : a.Sound depthOf possible)
include sound

private theorem optional_some {decode : ν → Option α} {tree : ν} {x : α}
    (read : a.optional decode tree = some (some x)) :
    a.present? tree = some (some tree) ∧ decode tree = some x := by
  rw [optional] at read
  split at read
  · cases read
  · cases read
  · rename_i inner isPresent
    obtain ⟨y, found, same⟩ := Option.map_eq_some_iff.mp read
    cases same
    obtain rfl := sound.present isPresent
    exact ⟨isPresent, found⟩

private theorem mem_optionalField {decode : ν → Option α} {tree? : Option ν} {x? : Option α}
    (read : field none (a.optional decode) tree? = some x?) :
    ∀ x ∈ x?, ∃ tree ∈ tree?, a.present? tree = some (some tree) ∧ decode tree = some x := by
  rintro x rfl
  rcases field_eq_some read with isNone | ⟨tree, found, read⟩
  · cases isNone
  · exact ⟨tree, found, sound.optional_some read⟩

/-- What stands in a list was read from an item, which may be read less deep. -/
private theorem mem_listField {decode : ν → Option α} {tree? : Option ν} {xs : List α}
    (read : field [] (a.list decode) tree? = some xs) :
    ∀ x ∈ xs, ∃ tree ∈ tree?, ∃ item, depthOf item < depthOf tree ∧ decode item = some x := by
  intro x member
  rcases field_eq_some read with rfl | ⟨tree, found, read⟩
  · cases member
  · obtain ⟨items, isList, read⟩ := Option.bind_eq_some_iff.mp read
    obtain ⟨item, isItem, read⟩ := exists_of_mem_mapM read member
    exact ⟨tree, found, item, sound.items isList item isItem, read⟩

end Sound
end Accessors

/-! ## The nesting of records -/

namespace Value

section Nesting

variable {depth : Nat}

@[simp] theorem nesting_string (s : String) : (string s).nesting = 0 := rfl

@[simp] theorem nesting_bool (b : Bool) : (bool b).nesting = 0 := rfl

@[simp] theorem nesting_ofNat (n : Nat) : (ofNat n).nesting = 0 := by
  rw [ofNat]
  split <;> rfl

@[simp] theorem nesting_array_le_iff {items : List Value} :
    (array items).nesting ≤ depth + 1 ↔ ∀ item ∈ items, item.nesting ≤ depth :=
  Nat.succ_le_succ_iff.trans nestingItems_le_iff

/-- What stands in a field, if it is there, nests only so deep. -/
def Fits (depth : Nat) (value? : Option Value) : Prop :=
  ∀ value ∈ value?, value.nesting ≤ depth

@[simp] theorem fits_none : Fits depth none := nofun

@[simp] theorem fits_some {value : Value} : Fits depth (some value) ↔ value.nesting ≤ depth := by
  simp [Fits]

@[simp] theorem fits_map {α : Type} {encode : α → Value} {x? : Option α} :
    Fits depth (x?.map encode) ↔ ∀ x ∈ x?, (encode x).nesting ≤ depth := by
  cases x? <;> simp

@[simp] theorem fits_ofText {text : String} : Fits depth (ofText text) := by
  rw [ofText]
  split <;> simp

@[simp] theorem fits_ofItems {items : List Value} :
    Fits (depth + 1) (ofItems items) ↔ ∀ item ∈ items, item.nesting ≤ depth := by
  cases items with
  | nil => simp [ofItems]
  | cons item rest => exact fits_some.trans nesting_array_le_iff

private theorem fits_ofEntries {entries : List (String × Value)} :
    Fits (depth + 1) (ofEntries entries) ↔ ∀ entry ∈ entries, entry.2.nesting ≤ depth := by
  rw [ofEntries]
  split
  · rename_i noEntries
    simp [List.isEmpty_iff.mp noEntries]
  · exact fits_some.trans (Nat.succ_le_succ_iff.trans nestingFields_le_iff)

@[simp] theorem nesting_record_le_iff {fields : List (String × Option Value)} :
    (object (present fields)).nesting ≤ depth + 1 ↔ ∀ field ∈ fields, Fits depth field.2 :=
  Nat.succ_le_succ_iff.trans nesting_present_le_iff

end Nesting

end Value

/-! ## Records -/

/-- A variable that may have been read: its default is possible, and its place fits into 64 bits. -/
structure Variable.Within (possible : Value → Prop) (depth : Nat) (v : Variable) : Prop where
  default : ∀ value ∈ v.defaultValue, value.Within depth ∧ possible value
  order : ∀ n ∈ v.order, n < 18446744073709551616

structure Interface.Within (possible : Value → Prop) (depth : Nat) (i : Interface) : Prop where
  inputs : ∀ v ∈ i.inputs, v.Within possible depth
  types : ∀ o ∈ i.outputs, ∀ value ∈ o.type, value.Within depth ∧ possible value

variable {possible : Value → Prop}

private theorem Interface.within_empty (depth : Nat) : ({} : Interface).Within possible depth where
  inputs _ member := nomatch member
  types _ member := nomatch member

section Nesting

variable {depth : Nat}

@[simp] theorem Connection.nesting_toValue_le (c : Connection) : c.toValue.nesting ≤ depth + 2 := by
  simp [-Value.present_cons, toValue_eq_present, fields, ConnectionSource.fields, ConnectionSpec.fields]

private theorem Variable.Within.nesting_toValue_le {v : Variable}
    (within : v.Within possible (depth + 3)) :
    v.toValue.nesting ≤ depth + 4 := by
  have default : Value.Fits (depth + 3) v.defaultValue := fun value member =>
    (within.default value member).1.shallow
  simp [-Value.present_cons, toValue_eq_present, fields, default]

private theorem Output.nesting_toValue_le {o : Output}
    (within : ∀ value ∈ o.type, value.Within (depth + 3) ∧ possible value) :
    o.toValue.nesting ≤ depth + 4 := by
  have type : Value.Fits (depth + 3) o.type := fun value member =>
    (within value member).1.shallow
  simp [-Value.present_cons, toValue_eq_present, fields, type]

private theorem Interface.Within.nesting_toValue_le {i : Interface}
    (within : i.Within possible (depth + 3)) :
    i.toValue.nesting ≤ depth + 6 := by
  have inputs : ∀ v ∈ i.inputs, v.toValue.nesting ≤ depth + 4 := fun v member =>
    (within.inputs v member).nesting_toValue_le
  have outputs : ∀ o ∈ i.outputs, o.toValue.nesting ≤ depth + 4 := fun o member =>
    Output.nesting_toValue_le (within.types o member)
  simpa [-Value.present_cons, toValue_eq_present, fields] using And.intro inputs outputs

private theorem Requirements.nesting_toValue_le (r : Requirements) :
    r.toValue.nesting ≤ depth + 4 := by
  simp [-Value.present_cons, toValue_eq_present, fields, RoleGrant.toValue_eq_present, RoleGrant.fields,
    ProviderVersion.toValue_eq_present, ProviderVersion.fields]

private theorem Info.nesting_toValue_le (i : Info) : i.toValue.nesting ≤ depth + 2 := by
  simp [-Value.present_cons, toValue_eq_present, fields, Repository.toValue_eq_present,
    Repository.fields,
    ActuationTool.toValue_eq_present, ActuationTool.fields]

private theorem ResourceMeta.nesting_toValue_le (r : ResourceMeta) :
    r.toValue.nesting ≤ depth + 2 := by
  have labels : Value.Fits (depth + 1)
      (Value.ofEntries (r.labels.entries.map fun entry => (entry.1, .string entry.2))) :=
    Value.fits_ofEntries.mpr (List.forall_mem_map.mpr fun _ _ => Nat.zero_le depth)
  simp [-Value.present_cons, toValue_eq_present, fields, labels]

/-- The value of a document nests no deeper than its dynamic values and its own records. -/
theorem Metadata.nesting_toValue_le {m : Metadata}
    (within : m.spec.interfaces.Within possible (depth + 3)) : m.toValue.nesting ≤ depth + 8 := by
  -- Only the interface holds dynamic values. The other records have a fixed shape.
  have resource : m.resource.toValue.nesting ≤ depth + 7 := m.resource.nesting_toValue_le
  have info : m.spec.info.toValue.nesting ≤ depth + 6 := m.spec.info.nesting_toValue_le
  have requirements : m.spec.requirements.toValue.nesting ≤ depth + 6 :=
    m.spec.requirements.nesting_toValue_le
  simp [-Value.present_cons, toValue_eq_present, fields, MetadataSpec.toValue_eq_present,
    MetadataSpec.fields, resource,
    info, requirements, within.nesting_toValue_le]

end Nesting

variable {ν : Type} {a : Accessors ν} {depthOf : ν → Nat} {depth : Nat}
variable (sound : a.Sound depthOf possible)
include sound

private theorem Variable.within_of_decode {tree : ν} {v : Variable} (read : decode a tree = some v)
    (room : depthOf tree ≤ depth + 1) : v.Within possible depth := by
  simp only [decode, Option.bind_eq_bind, Option.bind_eq_some_iff] at read
  obtain ⟨fields, isRecord, read⟩ := read
  have inside := sound.record isRecord
  split at read
  -- Of the eight fields only the default and the place are not of a fixed shape.
  · rename_i name description varType defaultValue required order connections
    simp only [Option.bind_eq_some_iff] at read
    obtain ⟨_, -, _, -, _, -, defaultValue, readDefault, _, -, order, readOrder, _, -, same⟩ := read
    cases same
    constructor
    · intro value member
      obtain ⟨child, found, isPresent, read⟩ := sound.mem_optionalField readDefault value member
      have deeper := inside _ (by simp) child found
      have accepted := sound.value isPresent read
      exact ⟨accepted.1.mono (by omega), accepted.2⟩
    · intro n member
      obtain ⟨child, -, -, read⟩ := sound.mem_optionalField readOrder n member
      exact sound.count read
  · cases read

private theorem Output.within_of_decode {tree : ν} {o : Output} (read : decode a tree = some o)
    (room : depthOf tree ≤ depth + 1) :
    ∀ value ∈ o.type, value.Within depth ∧ possible value := by
  simp only [decode, Option.bind_eq_bind, Option.bind_eq_some_iff] at read
  obtain ⟨fields, isRecord, read⟩ := read
  have inside := sound.record isRecord
  split at read
  · simp only [Option.bind_eq_some_iff] at read
    obtain ⟨_, -, _, -, type, readType, _, -, same⟩ := read
    cases same
    intro value member
    obtain ⟨child, found, isPresent, read⟩ := sound.mem_optionalField readType value member
    have deeper := inside _ (by simp) child found
    have accepted := sound.value isPresent read
    exact ⟨accepted.1.mono (by omega), accepted.2⟩
  · cases read

private theorem Interface.within_of_decode {tree : ν} {i : Interface}
    (read : decode a tree = some i)
    (room : depthOf tree ≤ depth + 3) : i.Within possible depth := by
  simp only [decode, Option.bind_eq_bind, Option.bind_eq_some_iff] at read
  obtain ⟨fields, isRecord, read⟩ := read
  have inside := sound.record isRecord
  split at read
  · simp only [Option.bind_eq_some_iff] at read
    obtain ⟨inputs, readInputs, outputs, readOutputs, same⟩ := read
    cases same
    constructor
    · intro v member
      obtain ⟨list, found, item, deeper, read⟩ := sound.mem_listField readInputs v member
      have outer := inside _ (by simp) list found
      exact Variable.within_of_decode sound read (by omega)
    · intro o member
      obtain ⟨list, found, item, deeper, read⟩ := sound.mem_listField readOutputs o member
      have outer := inside _ (by simp) list found
      exact Output.within_of_decode sound read (by omega)
  · cases read

private theorem MetadataSpec.within_of_decode {tree : ν} {s : MetadataSpec}
    (read : decode a tree = some s)
    (room : depthOf tree ≤ depth + 4) : s.interfaces.Within possible depth := by
  simp only [decode, Option.bind_eq_bind, Option.bind_eq_some_iff] at read
  obtain ⟨fields, isRecord, read⟩ := read
  have inside := sound.record isRecord
  split at read
  · simp only [Option.bind_eq_some_iff] at read
    obtain ⟨_, -, interfaces, readInterfaces, _, -, same⟩ := read
    cases same
    rcases Accessors.field_eq_some readInterfaces with rfl | ⟨child, found, read⟩
    · exact Interface.within_empty depth
    · have deeper := inside _ (by simp) child found
      exact Interface.within_of_decode sound read (by omega)
  · cases read

/-- The dynamic values of a document lie five levels deep, or deeper. -/
theorem Metadata.within_of_decode {tree : ν} {m : Metadata} (read : decode a tree = some m)
    (room : depthOf tree ≤ depth + 5) : m.spec.interfaces.Within possible depth := by
  simp only [decode, Option.bind_eq_bind, Option.bind_eq_some_iff] at read
  obtain ⟨fields, isRecord, read⟩ := read
  have inside := sound.record isRecord
  split at read
  · simp only [Option.bind_eq_some_iff] at read
    obtain ⟨_, -, _, -, _, -, spec, readSpec, same⟩ := read
    cases same
    rcases Accessors.field_eq_some readSpec with rfl | ⟨child, found, read⟩
    · exact Interface.within_empty depth
    · have deeper := inside _ (by simp) child found
      exact MetadataSpec.within_of_decode sound read (by omega)
  · cases read

end Blueprint
