import Blueprint.Json.Syntax
import Blueprint.Proofs.SortedMap

/-!
# Values and the trees of their JSON

A canonical value is found again in the tree that is written for it, provided that the tree does not
nest deeper than a reader allows. What is nested is measured on the value, so that the bound is
known before anything is written.
-/

namespace Blueprint

namespace Value

/-- A value is reached from the values inside it. -/
@[elab_as_elim]
theorem inductionOn {motive : Value → Prop} (null : motive .null) (bool : ∀ b, motive (.bool b))
    (number : ∀ n, motive (.number n)) (string : ∀ s, motive (.string s))
    (array : ∀ items, (∀ item ∈ items, motive item) → motive (.array items))
    (object : ∀ fields, (∀ field ∈ fields, motive field.2) → motive (.object fields)) :
    (value : Value) → motive value
  | .null => null
  | .bool b => bool b
  | .number n => number n
  | .string s => string s
  | .array items => array items fun item _ =>
    inductionOn null bool number string array object item
  | .object fields => object fields fun field _ =>
    inductionOn null bool number string array object field.2
termination_by value => sizeOf value
decreasing_by
  · have inside := List.sizeOf_lt_of_mem ‹item ∈ items›
    simp only [Value.array.sizeOf_spec]
    omega
  · have inside := List.sizeOf_lt_of_mem ‹field ∈ fields›
    obtain ⟨name, value⟩ := field
    simp only [Value.object.sizeOf_spec, Prod.mk.sizeOf_spec] at *
    omega

/-! ## Whole numbers and nesting -/

mutual
/-- All numbers inside are whole. -/
def FloatFree : Value → Prop
  | null | bool _ | string _ | number (.whole _) => True
  | number (.real _) => False
  | array items => FloatFreeItems items
  | object fields => FloatFreeFields fields

def FloatFreeItems : List Value → Prop
  | [] => True
  | item :: rest => item.FloatFree ∧ FloatFreeItems rest

def FloatFreeFields : List (String × Value) → Prop
  | [] => True
  | (_, value) :: rest => value.FloatFree ∧ FloatFreeFields rest
end

mutual
/-- Whether all numbers inside are whole is decided by recursion. -/
def decFloatFree : (value : Value) → Decidable value.FloatFree
  | null | bool _ | string _ | number (.whole _) => isTrue trivial
  | number (.real _) => isFalse id
  | array items => decFloatFreeItems items
  | object fields => decFloatFreeFields fields

def decFloatFreeItems : (items : List Value) → Decidable (FloatFreeItems items)
  | [] => isTrue trivial
  | item :: rest => @instDecidableAnd _ _ (decFloatFree item) (decFloatFreeItems rest)

def decFloatFreeFields : (fields : List (String × Value)) → Decidable (FloatFreeFields fields)
  | [] => isTrue trivial
  | (_, value) :: rest => @instDecidableAnd _ _ (decFloatFree value) (decFloatFreeFields rest)
end

instance : DecidablePred FloatFree := decFloatFree

mutual
/-- How deep the arrays and objects of a value nest. -/
def nesting : Value → Nat
  | null | bool _ | number _ | string _ => 0
  | array items => nestingItems items + 1
  | object fields => nestingFields fields + 1

def nestingItems : List Value → Nat
  | [] => 0
  | item :: rest => max item.nesting (nestingItems rest)

def nestingFields : List (String × Value) → Nat
  | [] => 0
  | (_, value) :: rest => max value.nesting (nestingFields rest)
end

/-- A container uses up one level of the depth that is allowed. -/
theorem exists_inner {nested depth : Nat} (shallow : nested + 1 ≤ depth) :
    ∃ inner, depth = inner + 1 ∧ nested ≤ inner :=
  ⟨depth - 1, by omega, by omega⟩

theorem floatFreeItems_iff {items : List Value} :
    FloatFreeItems items ↔ ∀ item ∈ items, item.FloatFree := by
  induction items with
  | nil => simp [FloatFreeItems]
  | cons item rest ih => simp [FloatFreeItems, ih]

theorem floatFreeFields_iff {fields : List (String × Value)} :
    FloatFreeFields fields ↔ ∀ field ∈ fields, field.2.FloatFree := by
  induction fields with
  | nil => simp [FloatFreeFields]
  | cons field rest ih => simp [FloatFreeFields, ih]

theorem nestingItems_le_iff {items : List Value} {depth : Nat} :
    nestingItems items ≤ depth ↔ ∀ item ∈ items, item.nesting ≤ depth := by
  induction items with
  | nil => simp [nestingItems]
  | cons item rest ih => rw [nestingItems, Nat.max_le, ih, List.forall_mem_cons]

theorem nestingFields_le_iff {fields : List (String × Value)} {depth : Nat} :
    nestingFields fields ≤ depth ↔ ∀ field ∈ fields, field.2.nesting ≤ depth := by
  induction fields with
  | nil => simp [nestingFields]
  | cons field rest ih => rw [nestingFields, Nat.max_le, ih, List.forall_mem_cons]

theorem canonicalItems_iff {items : List Value} :
    CanonicalItems items ↔ ∀ item ∈ items, item.Canonical := by
  induction items with
  | nil => simp [CanonicalItems]
  | cons item rest ih => simp [CanonicalItems, ih]

theorem canonicalFields_iff {fields : List (String × Value)} :
    CanonicalFields fields ↔ ∀ field ∈ fields, field.2.Canonical := by
  induction fields with
  | nil => simp [CanonicalFields]
  | cons field rest ih => simp [CanonicalFields, ih]

/-- A field of a canonical object is canonical. -/
theorem canonical_of_mem_object {fields : List (String × Value)} {entry : String × Value}
    (canonical : (object fields).Canonical) (member : entry ∈ fields) : entry.2.Canonical :=
  canonicalFields_iff.mp canonical.2 entry member

theorem canonical_field? {name : String} {value field : Value} (canonical : value.Canonical)
    (found : value.field? name = some field) : field.Canonical := by
  cases value with
  | object fields => exact canonical_of_mem_object canonical (mem_of_lookup found)
  | _ => cases found

/-- A value that can be read from a tree of which only some levels may be read. -/
structure Within (depth : Nat) (value : Value) : Prop where
  canonical : value.Canonical
  shallow : value.nesting ≤ depth

theorem Within.mono {less more : Nat} {value : Value} (within : value.Within less)
    (deeper : less ≤ more) : value.Within more :=
  ⟨within.canonical, Nat.le_trans within.shallow deeper⟩

/-- What does not nest can be read at any depth. -/
theorem within_of_nesting_eq_zero {depth : Nat} {value : Value} (flat : value.nesting = 0) :
    value.Within depth := by
  refine ⟨?_, by omega⟩
  cases value with
  | array | object => simp [nesting] at flat
  | _ => trivial

theorem within_array {depth : Nat} {items : List Value}
    (canonical : CanonicalItems items) (shallow : nestingItems items ≤ depth) :
    (array items).Within (depth + 1) :=
  ⟨canonical, Nat.succ_le_succ shallow⟩

/-- An object of canonical fields in any order is canonical. -/
theorem canonical_ofFields {fields : List (String × Value)} (canonical : CanonicalFields fields) :
    (ofFields fields).Canonical :=
  ⟨ascendingKeys_sortEntries fields, canonicalFields_iff.mpr fun field member =>
    canonicalFields_iff.mp canonical field (mem_of_mem_sortEntries member)⟩

theorem within_ofFields {depth : Nat} {fields : List (String × Value)}
    (canonical : CanonicalFields fields) (shallow : nestingFields fields ≤ depth) :
    (ofFields fields).Within (depth + 1) where
  canonical := canonical_ofFields canonical
  shallow := Nat.succ_le_succ (nestingFields_le_iff.mpr fun field member =>
    nestingFields_le_iff.mp shallow field (mem_of_mem_sortEntries member))

end Value

/-! ## Trees of values -/

namespace Json

theorem ofItems_eq_map (items : List Value) : ofItems items = items.map ofValue := by
  induction items with
  | nil => rfl
  | cons item rest ih => rw [ofItems, ih, List.map_cons]

theorem ofFields_eq_map (fields : List (String × Value)) :
    ofFields fields = fields.map fun field => (some field.1, ofValue field.2) := by
  induction fields with
  | nil => rfl
  | cons field rest ih => rw [ofFields, ih, List.map_cons]

mutual
/-- A canonical value is the value of its tree, for readers that allow for its nesting. -/
theorem toValue?_ofValue {depth : Nat} : (value : Value) → value.Canonical →
    value.nesting ≤ depth → toValue? depth (ofValue value) = some value
  | .null, _, _ | .bool _, _, _ | .number _, _, _ | .string _, _, _ => by
    simp [ofValue, toValue?]
  | .array items, canonical, shallow => by
    obtain ⟨inner, rfl, bounds⟩ := Value.exists_inner shallow
    rw [ofValue, toValue?, itemsToValues?_ofItems items canonical bounds]
    rfl
  | .object fields, canonical, shallow => by
    obtain ⟨inner, rfl, bounds⟩ := Value.exists_inner shallow
    rw [ofValue, toValue?, membersToFields?_ofFields fields canonical.2 bounds, Option.map_some,
      Value.ofFields, sortEntries_of_ascending canonical.1]

private theorem itemsToValues?_ofItems {depth : Nat} : (items : List Value) →
    Value.CanonicalItems items → Value.nestingItems items ≤ depth →
      itemsToValues? depth (ofItems items) = some items
  | [], _, _ => rfl
  | item :: rest, canonical, shallow => by
    have bounds := Nat.max_le.mp shallow
    rw [ofItems, itemsToValues?, toValue?_ofValue item canonical.1 bounds.1,
      itemsToValues?_ofItems rest canonical.2 bounds.2]
    rfl

private theorem membersToFields?_ofFields {depth : Nat} : (fields : List (String × Value)) →
    Value.CanonicalFields fields → Value.nestingFields fields ≤ depth →
      membersToFields? depth (ofFields fields) = some fields
  | [], _, _ => rfl
  | (name, value) :: rest, canonical, shallow => by
    have bounds := Nat.max_le.mp shallow
    rw [ofFields, membersToFields?, toValue?_ofValue value canonical.1 bounds.1,
      membersToFields?_ofFields rest canonical.2 bounds.2]
    rfl
end

mutual
/-- What is read from a tree has its keys in order and stays within the levels that are read. -/
theorem within_of_toValue? {depth : Nat} {value : Value} : (json : Json) →
    toValue? depth json = some value → value.Within depth
  | .null, read => by
    cases read
    exact Value.within_of_nesting_eq_zero rfl
  | .bool b, read => by
    cases read
    exact Value.within_of_nesting_eq_zero rfl
  | .number value?, read => by
    obtain ⟨n, -, rfl⟩ := Option.map_eq_some_iff.mp read
    exact Value.within_of_nesting_eq_zero rfl
  | .string text?, read => by
    obtain ⟨s, -, rfl⟩ := Option.map_eq_some_iff.mp read
    exact Value.within_of_nesting_eq_zero rfl
  | .array items, read => by
    cases depth with
    | zero => cases read
    | succ inner =>
      obtain ⟨values, inside, rfl⟩ := Option.map_eq_some_iff.mp read
      have within := within_of_itemsToValues? items inside
      exact Value.within_array within.1 within.2
  | .object members, read => by
    cases depth with
    | zero => cases read
    | succ inner =>
      obtain ⟨fields, inside, rfl⟩ := Option.map_eq_some_iff.mp read
      have within := within_of_membersToFields? members inside
      exact Value.within_ofFields within.1 within.2

private theorem within_of_itemsToValues? {depth : Nat} {values : List Value} : (items : List Json) →
    itemsToValues? depth items = some values →
      Value.CanonicalItems values ∧ Value.nestingItems values ≤ depth
  | [], read => by
    cases read
    exact ⟨trivial, Nat.zero_le _⟩
  | item :: rest, read => by
    simp only [itemsToValues?, Option.bind_eq_bind, Option.bind_eq_some_iff] at read
    obtain ⟨value, first, values, others, same⟩ := read
    cases same
    have head := within_of_toValue? item first
    have tail := within_of_itemsToValues? rest others
    exact ⟨⟨head.canonical, tail.1⟩, Nat.max_le.mpr ⟨head.shallow, tail.2⟩⟩

private theorem within_of_membersToFields? {depth : Nat} {fields : List (String × Value)} :
    (members : List (Option String × Json)) → membersToFields? depth members = some fields →
      Value.CanonicalFields fields ∧ Value.nestingFields fields ≤ depth
  | [], read => by
    cases read
    exact ⟨trivial, Nat.zero_le _⟩
  | (name?, member) :: rest, read => by
    simp only [membersToFields?, Option.bind_eq_bind, Option.bind_eq_some_iff] at read
    obtain ⟨name, -, value, first, fields, others, same⟩ := read
    cases same
    have head := within_of_toValue? member first
    have tail := within_of_membersToFields? rest others
    exact ⟨⟨head.canonical, tail.1⟩, Nat.max_le.mpr ⟨head.shallow, tail.2⟩⟩
end

end Json
end Blueprint
