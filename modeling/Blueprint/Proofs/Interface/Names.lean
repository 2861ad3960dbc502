import Blueprint.Extract.Interface
import Blueprint.Proofs.Results

/-!
# Names in an interface that was read

No two variables and no two outputs of an interface that was read from source files have the same
name, and nothing in it is connected to another blueprint. Reading goes through the files with the
names it has seen so far, so the statement that an induction over the files proves is about names
that are new.
-/

namespace Blueprint.Interface

/-- Names that are pairwise distinct, none of which was seen before. -/
structure NewNames (seen names : List String) : Prop where
  distinct : names.Nodup
  unseen : ∀ name ∈ names, name ∉ seen

theorem newNames_nil (seen : List String) : NewNames seen [] :=
  ⟨.nil, by simp⟩

/-- Names that are new after other new names are new together with them. -/
theorem NewNames.append {seen front back : List String} (first : NewNames seen front)
    (later : NewNames (front ++ seen) back) : NewNames seen (front ++ back) := by
  constructor
  · rw [List.nodup_append]
    refine ⟨first.distinct, later.distinct, fun a inFront b inBack same => ?_⟩
    subst same
    exact later.unseen a inBack (List.mem_append_left seen inFront)
  · intro name member
    rcases List.mem_append.1 member with inFront | inBack
    · exact first.unseen name inFront
    · exact fun old => later.unseen name inBack (List.mem_append_right front old)

/-- The names that blocks are given are new. -/
private theorem newNames_of_named {path : String} {seen : List String} {blocks : List Hcl.Block}
    {found : List (String × Hcl.Block)} (accepted : named path seen blocks = .ok found) :
    NewNames seen (found.map (·.1)) := by
  induction blocks generalizing seen found with
  | nil =>
    cases accepted
    exact newNames_nil seen
  | cons block rest ih =>
    simp only [named] at accepted
    split at accepted
    · cases accepted
    · rename_i name _
      split at accepted
      · cases accepted
      · rename_i fresh
        obtain ⟨others, later, rfl⟩ := map_eq_ok_iff.1 accepted
        have single : NewNames seen [name] := ⟨by simp, by simpa using fresh⟩
        simpa using single.append (ih later)

/-- What holds of an interface that was read after names were seen. -/
structure ReadAfter (seenInputs seenOutputs : List String) (interface : Interface) : Prop where
  inputNames : NewNames seenInputs (interface.inputs.map (·.name))
  outputNames : NewNames seenOutputs (interface.outputs.map (·.name))
  inputConnections : ∀ v ∈ interface.inputs, v.connections = []
  outputConnections : ∀ o ∈ interface.outputs, o.connections = []

private theorem readAfter_of_declared {seenInputs seenOutputs : List String}
    {files : List SourceFile}
    {interface : Interface} (read : declared seenInputs seenOutputs files = .ok interface) :
    ReadAfter seenInputs seenOutputs interface := by
  induction files generalizing seenInputs seenOutputs interface with
  | nil =>
    cases read
    exact ⟨newNames_nil _, newNames_nil _, by simp, by simp⟩
  | cons file rest ih =>
    simp only [declared, bind_eq_ok_iff, pure_eq_ok_iff] at read
    obtain ⟨inputs, namedInputs, outputs, namedOutputs, later, readLater, rfl⟩ := read
    -- The files behind were read with the names of this file among those seen.
    have tail := ih readLater
    constructor
    · simpa [variableOf, Function.comp_def] using
        (newNames_of_named namedInputs).append tail.inputNames
    · simpa [outputOf, Function.comp_def] using
        (newNames_of_named namedOutputs).append tail.outputNames
    · intro v member
      rcases List.mem_append.1 member with here | there
      · obtain ⟨pair, _, rfl⟩ := List.mem_map.1 here
        rfl
      · exact tail.inputConnections v there
    · intro o member
      rcases List.mem_append.1 member with here | there
      · obtain ⟨pair, _, rfl⟩ := List.mem_map.1 here
        rfl
      · exact tail.outputConnections o there

/-- Giving variables their places changes nothing of this. -/
theorem readAfter_of_ofFiles {files : List SourceFile} {interface : Interface}
    (read : ofFiles files = .ok interface) : ReadAfter [] [] interface := by
  simp only [ofFiles, bind_eq_ok_iff, pure_eq_ok_iff] at read
  obtain ⟨bare, declares, orders, _, rfl⟩ := read
  have base := readAfter_of_declared declares
  refine ⟨?_, base.outputNames, ?_, base.outputConnections⟩
  · simpa [Function.comp_def] using base.inputNames
  · intro v member
    obtain ⟨before, inBare, rfl⟩ := List.mem_map.1 member
    exact base.inputConnections before inBare

end Blueprint.Interface
