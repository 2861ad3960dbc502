import Blueprint.Generate
import Blueprint.Proofs.Results
import Blueprint.Proofs.Value

/-!
# Types given to outputs

Whatever a state says, outputs that are given types differ from the outputs before in their types
only: `Output.untyped` forgets the type, and what it leaves is the same for every output, in order.
-/

namespace Blueprint

/-- An output without its type. -/
def Output.untyped (o : Output) : Output :=
  { o with type := none }

namespace State

/-- A value that is read from the bytes of a state is canonical. -/
theorem canonical_of_read? {bytes : ByteArray} {state : Value} (read : read? bytes = some state) :
    state.Canonical := by
  obtain ⟨text, -, read⟩ := Option.bind_eq_some_iff.mp read
  obtain ⟨json, -, read⟩ := Option.bind_eq_some_iff.mp read
  exact (Json.within_of_toValue? json read).canonical

/-- Bytes that are a JSON object are a state, wherever they were retrieved for. -/
theorem outputTypes_eq_ok_iff {path : String} {bytes : ByteArray} {types : SortedMap Value} :
    outputTypes path bytes = .ok types ↔
      ∃ fields, read? bytes = some (.object fields) ∧ typesOf (.object fields) = types := by
  unfold outputTypes
  cases read? bytes with
  | none => simp
  | some state => cases state <;> simp

private theorem untyped_assignTypes (types : SortedMap Value) (outputs : List Output) :
    (assignTypes types outputs).2.map Output.untyped = outputs.map Output.untyped := by
  induction outputs with
  | nil => rfl
  | cons output rest ih =>
    simp only [assignTypes]
    split <;> simp [ih, Output.untyped]

/-- Outputs whose types were resolved are those from before, or they were given the types of a state
that was read. -/
private theorem typed_of_resolveTypes {retrieve : StateSource} {path : String}
    {outputs typed : List Output}
    {count : Nat}
    (resolved : Id.run (resolveTypes (fun place => pure (retrieve place)) path outputs) =
      .ok (count, typed)) :
    typed = outputs ∨ ∃ bytes types, outputTypes path bytes = .ok types ∧
      typed = (assignTypes types outputs).2 := by
  -- No state is asked for where every output has its type.
  by_cases all : outputs.all fun output => output.type.isSome
  · simp only [resolveTypes, all, if_true] at resolved
    cases resolved
    exact .inl rfl
  · cases answer : retrieve path with
    | error error =>
      simp [resolveTypes, all, answer] at resolved
    | ok bytes =>
      simp only [resolveTypes, all, answer] at resolved
      obtain ⟨types, read, assigned⟩ := map_eq_ok_iff.1 resolved
      exact .inr ⟨bytes, types, read, (congrArg Prod.snd assigned).symm⟩

end State

namespace Metadata

variable {states : Option StateSource} {path : String} {outputs typed : List Output}

theorem typed_of_typedOutputs (resolved : typedOutputs states path outputs = .ok typed) :
    typed = outputs ∨ ∃ bytes types, State.outputTypes path bytes = .ok types ∧
      typed = (State.assignTypes types outputs).2 := by
  cases states with
  | none =>
    cases resolved
    exact .inl rfl
  | some source =>
    obtain ⟨⟨count, found⟩, ran, rfl⟩ := map_eq_ok_iff.1 resolved
    exact State.typed_of_resolveTypes ran

/-- Outputs with the types that a source knows are those from before but for their types. -/
theorem untyped_typedOutputs (resolved : typedOutputs states path outputs = .ok typed) :
    typed.map Output.untyped = outputs.map Output.untyped := by
  rcases typed_of_typedOutputs resolved with rfl | ⟨bytes, types, -, rfl⟩
  · rfl
  · exact State.untyped_assignTypes types outputs

end Metadata
end Blueprint
