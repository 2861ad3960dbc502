import Blueprint.Merge

/-!
# Merged documents

A merge goes through the elements of the new document one by one, and what an element takes over
depends on its own name only. So looking an element up in the merged document is looking it up in
the new one and then letting it take over what the earlier document has. Merging a document that is
itself the result of a merge into the same new document adds nothing.
-/

namespace Blueprint

variable {α : Type}

/-- Where names are distinct, looking a name up finds the element that has it. -/
theorem find?_of_distinct (name : α → String) {items : List α} {item : α}
    (distinct : (items.map name).Nodup) (member : item ∈ items) :
    items.find? (fun other => name other == name item) = some item := by
  induction items with
  | nil => cases member
  | cons first rest ih =>
    rw [List.map_cons, List.nodup_cons] at distinct
    rcases List.mem_cons.1 member with rfl | later
    · simp
    · have different : name first ≠ name item := fun same =>
        distinct.1 (same ▸ List.mem_map_of_mem later)
      simp [different, ih distinct.2 later]

@[simp] theorem keepConnections_nil (previous : Option (List Connection)) :
    keepConnections previous [] = previous.getD [] := by
  unfold keepConnections
  split
  · rfl
  · rename_i empty
    rcases previous with _ | _ | ⟨c, rest⟩
    · rfl
    · rfl
    · exact absurd rfl (empty c rest)

/-- Connections that were kept are kept again. -/
private theorem keepConnections_again (previous : Option (List Connection))
    (new : List Connection) :
    keepConnections (some (keepConnections previous new)) new = keepConnections previous new := by
  rcases previous with _ | _ | ⟨c, rest⟩
  · cases new <;> rfl
  · cases new <;> rfl
  · rfl

/-- A text that was kept is kept again. -/
theorem keepText_again (previous new : String) :
    keepText (keepText previous new) new = keepText previous new := by
  unfold keepText
  by_cases empty : previous.isEmpty = true
  · simp [empty]
  · simp [empty]

/-- A text that was filled in is filled in again. -/
theorem fillText_again (new previous : String) :
    fillText new (fillText new previous) = fillText new previous := by
  unfold fillText
  split <;> rfl

@[simp] theorem keepText_empty (previous : String) : keepText previous "" = previous := by
  unfold keepText
  split
  · rename_i empty
    exact (String.isEmpty_iff.1 empty).symm
  · rfl

/-- A variable with what it takes over from an earlier interface. -/
def Variable.takeOver (existing : Interface) (v : Variable) : Variable :=
  { v with connections :=
      keepConnections ((existing.variableNamed? v.name).map (·.connections)) v.connections }

/-- An output with what it takes over from an earlier interface. -/
def Output.takeOver (existing : Interface) (o : Output) : Output :=
  { o with
    connections := keepConnections ((existing.outputNamed? o.name).map (·.connections)) o.connections
    type := o.type.or ((existing.outputNamed? o.name).bind (·.type)) }

namespace Interface

/-- An interface whose elements take over what an earlier interface has. -/
def takeOver (new existing : Interface) : Interface where
  inputs := new.inputs.map (·.takeOver existing)
  outputs := new.outputs.map (·.takeOver existing)

@[simp] theorem map_name_inputs_takeOver (new existing : Interface) :
    (new.takeOver existing).inputs.map (·.name) = new.inputs.map (·.name) := by
  simp [takeOver, Variable.takeOver, Function.comp_def]

@[simp] theorem map_name_outputs_takeOver (new existing : Interface) :
    (new.takeOver existing).outputs.map (·.name) = new.outputs.map (·.name) := by
  simp [takeOver, Output.takeOver, Function.comp_def]

/-- A variable found after a merge is the new one with what it takes over. -/
theorem variableNamed?_takeOver (new existing : Interface) (name : String) :
    (new.takeOver existing).variableNamed? name =
      (new.variableNamed? name).map (·.takeOver existing) := by
  simp only [variableNamed?, takeOver, List.find?_map]
  rfl

/-- An output found after a merge is the new one with what it takes over. -/
theorem outputNamed?_takeOver (new existing : Interface) (name : String) :
    (new.takeOver existing).outputNamed? name =
      (new.outputNamed? name).map (·.takeOver existing) := by
  simp only [outputNamed?, takeOver, List.find?_map]
  rfl

theorem name_of_variableNamed? {i : Interface} {name : String} {v : Variable}
    (found : i.variableNamed? name = some v) : v.name = name := by
  simpa using List.find?_some found

theorem name_of_outputNamed? {i : Interface} {name : String} {o : Output}
    (found : i.outputNamed? name = some o) : o.name = name := by
  simpa using List.find?_some found

/-- Taking over from a result of taking over adds nothing. -/
theorem takeOver_takeOver_self {new : Interface} (existing : Interface)
    (inputNames : (new.inputs.map (·.name)).Nodup)
    (outputNames : (new.outputs.map (·.name)).Nodup) :
    new.takeOver (new.takeOver existing) = new.takeOver existing := by
  -- A new name occurs once, so what is found under it is the element itself after its merge.
  have sameInputs : ∀ v ∈ new.inputs,
      v.takeOver (new.takeOver existing) = v.takeOver existing := by
    intro v member
    have found : new.variableNamed? v.name = some v := find?_of_distinct _ inputNames member
    simp only [Variable.takeOver, variableNamed?_takeOver, found, Option.map_some,
      keepConnections_again]
  have sameOutputs : ∀ o ∈ new.outputs,
      o.takeOver (new.takeOver existing) = o.takeOver existing := by
    intro o member
    have found : new.outputNamed? o.name = some o := find?_of_distinct _ outputNames member
    simp only [Output.takeOver, outputNamed?_takeOver, found, Option.map_some,
      Option.bind_some, keepConnections_again]
    cases o.type <;> simp
  calc new.takeOver (new.takeOver existing)
      = { inputs := new.inputs.map (·.takeOver (new.takeOver existing))
          outputs := new.outputs.map (·.takeOver (new.takeOver existing)) } := rfl
    _ = new.takeOver existing := by
      rw [List.map_congr_left sameInputs, List.map_congr_left sameOutputs, takeOver]

end Interface

namespace Metadata

/-- A merged document is the new one but for its resource, its information and its interface. -/
theorem merge_eq (new existing : Metadata) :
    new.merge existing =
      { new with
        resource :=
          { name := keepText existing.resource.name new.resource.name
            labels := if new.resource.labels.isEmpty then existing.resource.labels
                      else new.resource.labels }
        spec.info := new.spec.info.keep existing.spec.info
        spec.interfaces := new.spec.interfaces.takeOver existing.spec.interfaces } := by
  -- Connections and types of outputs are kept in two passes, neither of which sees the other.
  have interfaces : (new.spec.interfaces.keepConnections existing.spec.interfaces).keepOutputTypes
      existing.spec.interfaces = new.spec.interfaces.takeOver existing.spec.interfaces := by
    simp [Interface.keepOutputTypes, Interface.keepConnections, Interface.takeOver,
      Variable.takeOver, Output.takeOver, Function.comp_def]
  simp only [merge, keepInfo, keepOutputTypes, keepConnections, interfaces]

end Metadata
end Blueprint
