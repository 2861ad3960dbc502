import Blueprint.Proofs.Literals
import Blueprint.Proofs.Merge
import Blueprint.Proofs.Metadata.Reread
import Blueprint.Proofs.OutputTypes
import Blueprint.Proofs.State.Inference

/-!
# Documents that are made

Whatever a blueprint, its state and an earlier document say, a document that is made of them has the
keys of its dynamic values in order and every variable at its place (`Metadata.Settled`). So the
only things that a text could not hold are numbers with a fraction.
-/

namespace Blueprint

/-! ## Types of outputs -/

/-- Outputs whose types have their keys in order. -/
def CanonicalTypes (outputs : List Output) : Prop :=
  ∀ o ∈ outputs, ∀ type ∈ o.type, type.Canonical

namespace State

private theorem canonical_of_mem_outputs {state : Value} {entry : String × Value}
    (canonical : state.Canonical) (member : entry ∈ outputs state) : entry.2.Canonical := by
  rw [outputs] at member
  split at member
  · rename_i fields found
    -- The object of outputs is a field of the state, or of a field of it.
    have listed : (Value.object fields).Canonical := by
      rcases Option.or_eq_some_iff.mp found with top | ⟨-, inner⟩
      · exact Value.canonical_field? canonical top
      · obtain ⟨values, found, inner⟩ := Option.bind_eq_some_iff.mp inner
        exact Value.canonical_field? (Value.canonical_field? canonical found) inner
    exact Value.canonical_of_mem_object listed member
  · cases member

private theorem canonical_outputType? {entry type : Value} (canonical : entry.Canonical)
    (found : outputType? entry = some type) : type.Canonical := by
  rw [outputType?] at found
  split at found
  · obtain ⟨value, -, inferred⟩ := Option.bind_eq_some_iff.mp found
    exact Value.canonical_inferType? value type inferred
  · obtain ⟨value, -, inferred⟩ := Option.bind_eq_some_iff.mp found
    exact Value.canonical_inferType? value type inferred
  · rename_i recorded _ field
    cases found
    exact Value.canonical_field? canonical field

private theorem canonical_typesOf {state type : Value} {name : String} (canonical : state.Canonical)
    (found : (typesOf state).get? name = some type) : type.Canonical := by
  have member := mem_of_mem_sortEntries (mem_of_lookup found)
  obtain ⟨⟨output, entry⟩, listed, told⟩ := List.mem_filterMap.mp member
  obtain ⟨type, told, same⟩ := Option.map_eq_some_iff.mp told
  cases same
  exact canonical_outputType? (canonical_of_mem_outputs canonical listed) told

private theorem canonical_outputTypes {path : String} {bytes : ByteArray} {types : SortedMap Value}
    (read : outputTypes path bytes = .ok types) (name : String) (type : Value)
    (found : types.get? name = some type) : type.Canonical := by
  rw [outputTypes] at read
  split at read
  · cases read
  · rename_i state isState
    split at read
    · cases read
      exact canonical_typesOf (canonical_of_read? isState) found
    · cases read

private theorem canonicalTypes_assignTypes {types : SortedMap Value} {outputs : List Output}
    (canonical : ∀ name type, types.get? name = some type → type.Canonical)
    (before : CanonicalTypes outputs) : CanonicalTypes (assignTypes types outputs).2 := by
  induction outputs with
  | nil => exact before
  | cons output rest ih =>
    obtain ⟨first, others⟩ := List.forall_mem_cons.mp before
    have later := ih others
    simp only [assignTypes]
    split
    · rename_i type _ found
      have assigned : ∀ t ∈ some type, t.Canonical := by
        rintro t ⟨⟩
        exact canonical _ _ found
      exact List.forall_mem_cons.mpr ⟨assigned, later⟩
    · exact List.forall_mem_cons.mpr ⟨first, later⟩

end State

namespace Metadata

private theorem canonicalTypes_typedOutputs {states : Option StateSource} {path : String}
    {outputs typed : List Output} (before : CanonicalTypes outputs)
    (resolved : typedOutputs states path outputs = .ok typed) : CanonicalTypes typed := by
  rcases typed_of_typedOutputs resolved with rfl | ⟨bytes, types, read, rfl⟩
  · exact before
  · exact State.canonicalTypes_assignTypes (State.canonical_outputTypes read) before

/-- A document whose dynamic values have their keys in order, and whose variables stand at their
places. -/
structure Settled (document : Metadata) : Prop where
  defaults : ∀ v ∈ document.spec.interfaces.inputs, ∀ value ∈ v.defaultValue, value.Canonical
  types : CanonicalTypes document.spec.interfaces.outputs
  places : ∀ (k : Nat) (v : Variable), document.spec.interfaces.inputs[k]? = some v →
    v.order = some k

/-- What is made of a blueprint anew is settled. -/
private theorem settled_of_describe {config : Config} {fs : FileSystem}
    {states : Option StateSource}
    {path root : String} {new : Metadata}
    (made : describe config fs states path root = .ok new) : new.Settled := by
  simp only [describe, bind_eq_ok_iff, pure_eq_ok_iff] at made
  obtain ⟨_, _, files, _, interface, read, outputs, typed, _, _, rfl⟩ := made
  obtain ⟨namedInputs, namedOutputs, found, named, rfl⟩ := Interface.ofFiles_eq_ok_iff.mp read
  constructor
  case defaults =>
    intro v member value isDefault
    obtain ⟨⟨name, block⟩, -, rfl⟩ := List.mem_map.mp member
    obtain ⟨-, e, -, rfl⟩ := (Interface.defaultValue_variableOf name).mp isDefault
    exact e.canonical_toValue
  case types =>
    -- Source files say nothing about types.
    have untyped : CanonicalTypes (Interface.assembled namedInputs namedOutputs).outputs := by
      intro o member type found
      obtain ⟨pair, -, rfl⟩ := List.mem_map.mp member
      cases found
    exact canonicalTypes_typedOutputs untyped typed
  case places => exact (Interface.describes_assembled found named).orders

/-- What is kept of an earlier document leaves a new one settled. -/
private theorem Settled.merge {new existing : Metadata} (settled : new.Settled)
    (types : CanonicalTypes existing.spec.interfaces.outputs) : (new.merge existing).Settled := by
  rw [merge_eq]
  constructor
  case defaults =>
    intro v member
    obtain ⟨before, inNew, rfl⟩ := List.mem_map.mp member
    exact settled.defaults before inNew
  case types =>
    intro o member type found
    obtain ⟨before, inNew, rfl⟩ := List.mem_map.mp member
    -- A type that the new document lacks is that of an earlier output of the name.
    rcases Option.or_eq_some_iff.mp found with own | ⟨-, kept⟩
    · exact settled.types before inNew type own
    · obtain ⟨earlier, inExisting, kept⟩ := Option.bind_eq_some_iff.mp kept
      exact types earlier (List.mem_of_find?_eq_some inExisting) type kept
  case places =>
    intro k v chosen
    simp only [Interface.takeOver, List.getElem?_map, Option.map_eq_some_iff] at chosen
    obtain ⟨before, inNew, rfl⟩ := chosen
    exact settled.places k before inNew

theorem settled_of_generate {config : Config} {fs : FileSystem} {states : Option StateSource}
    {path root : String} {existing : Option Metadata} {document : Metadata}
    (types : ∀ earlier ∈ existing, CanonicalTypes earlier.spec.interfaces.outputs)
    (made : generate config fs states path root existing = .ok document) : document.Settled := by
  obtain ⟨new, described, rfl⟩ := map_eq_ok_iff.mp made
  have settled := settled_of_describe described
  cases existing with
  | none => exact settled
  | some earlier => exact settled.merge (types earlier rfl)

/-- The types of a document that was read have their keys in order, whatever the format. -/
theorem canonicalTypes_of_read? {format : Format} {text : String} {document : Metadata}
    (read : read? format text = some document) :
    CanonicalTypes document.spec.interfaces.outputs := by
  cases format with
  | yaml =>
    obtain ⟨within, -⟩ := accepted_of_read?_yaml read
    exact fun o member type found => (within.types o member type found).1.canonical
  | json =>
    obtain ⟨within, -⟩ := accepted_of_read?_json read
    exact fun o member type found => (within.types o member type found).1.canonical

/-- A settled document without floating point numbers is exact, unless it has more variables than
can be counted. -/
theorem Settled.exact {document : Metadata} (settled : document.Settled)
    (floatFree : document.FloatFree)
    (countable : document.spec.interfaces.inputs.length ≤ 18446744073709551616) :
    document.Exact where
  inputs v member :=
    { default := fun value found =>
        ⟨floatFree.defaults v member value found, settled.defaults v member value found⟩
      order := fun n isPlace => by
        obtain ⟨k, inside, rfl⟩ := List.mem_iff_getElem.mp member
        have placed := settled.places k _ (List.getElem?_eq_getElem inside)
        obtain rfl : k = n := Option.some.inj (placed.symm.trans isPlace)
        omega }
  types o member value found :=
    ⟨floatFree.types o member value found, settled.types o member value found⟩

end Metadata
end Blueprint
