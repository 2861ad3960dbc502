import Blueprint.Proofs.Merge

/-!
# The passes of a merge

A merge takes connections, types of outputs and general information over, each in a pass of its own.
No pass reads what another one writes, so any two passes can change places, and a pass that runs a
second time finds nothing left to take over. A run of passes therefore depends only on which passes
are in it, and every run with all three of them is a merge.
-/

namespace Blueprint

/-- Connections that were kept are not replaced by keeping the same ones again. -/
private theorem keepConnections_keepConnections (previous : Option (List Connection))
    (new : List Connection) :
    keepConnections previous (keepConnections previous new) = keepConnections previous new := by
  rcases previous with _ | _ | ⟨c, rest⟩ <;> rfl

private theorem keepConnections_self (connections : List Connection) :
    keepConnections (some connections) connections = connections := by
  cases connections <;> rfl

private theorem keepText_keepText (previous new : String) :
    keepText previous (keepText previous new) = keepText previous new := by
  unfold keepText
  split <;> rfl

private theorem keepText_self (text : String) : keepText text text = text := by
  simp [keepText]

private theorem fillText_fillText (new previous : String) :
    fillText (fillText new previous) previous = fillText new previous := by
  unfold fillText
  by_cases empty : new.isEmpty = true
  · simp [empty]
  · simp [empty]

private theorem fillText_self (text : String) : fillText text text = text := by
  simp [fillText]

namespace Interface

/-- An interface whose names occur once takes nothing over from itself. -/
private theorem takeOver_self {i : Interface} (inputNames : (i.inputs.map (·.name)).Nodup)
    (outputNames : (i.outputs.map (·.name)).Nodup) : i.takeOver i = i := by
  have sameInputs : ∀ v ∈ i.inputs, v.takeOver i = v := by
    intro v member
    have found : i.variableNamed? v.name = some v := find?_of_distinct _ inputNames member
    simp [Variable.takeOver, found, keepConnections_self]
  have sameOutputs : ∀ o ∈ i.outputs, o.takeOver i = o := by
    intro o member
    have found : i.outputNamed? o.name = some o := find?_of_distinct _ outputNames member
    simp [Output.takeOver, found, keepConnections_self]
  calc i.takeOver i
      = { inputs := i.inputs.map (·.takeOver i), outputs := i.outputs.map (·.takeOver i) } := rfl
    _ = { inputs := i.inputs.map id, outputs := i.outputs.map id } := by
      rw [List.map_congr_left sameInputs, List.map_congr_left sameOutputs]
      rfl
    _ = i := by simp

end Interface

namespace Metadata

/-- The passes of a merge. -/
inductive Pass where
  | connections
  | outputTypes
  | info
deriving DecidableEq, Repr

namespace Pass

/-- What a pass makes of a new document by taking over from an earlier one. -/
def run (existing : Metadata) : Pass → Metadata → Metadata
  | connections, new => new.keepConnections existing
  | outputTypes, new => new.keepOutputTypes existing
  | info, new => new.keepInfo existing

/-- A new document after passes that take over from an earlier one, one after the other. -/
def runAll (existing : Metadata) (passes : List Pass) (new : Metadata) : Metadata :=
  passes.foldl (fun document pass => pass.run existing document) new

variable {existing new : Metadata}

/-- A pass that runs again finds nothing left to take over. -/
private theorem run_run (pass : Pass) (new : Metadata) :
    pass.run existing (pass.run existing new) = pass.run existing new := by
  cases pass with
  | connections =>
    simp [run, Metadata.keepConnections, Interface.keepConnections, Function.comp_def,
      keepConnections_keepConnections]
  | outputTypes =>
    simp [run, Metadata.keepOutputTypes, Interface.keepOutputTypes, Function.comp_def,
      Option.or_assoc]
  | info =>
    by_cases empty : new.resource.labels.isEmpty = true <;>
      simp [run, keepInfo, Info.keep, empty, keepText_keepText, fillText_fillText, Option.or_assoc]

/-- Passes do not see each other. -/
private theorem run_comm (first second : Pass) (new : Metadata) :
    first.run existing (second.run existing new) =
      second.run existing (first.run existing new) := by
  -- Only the outputs are gone through by two passes, and each of these leaves alone what the other
  -- one reads and writes.
  have outputs : (new.keepOutputTypes existing).keepConnections existing =
      (new.keepConnections existing).keepOutputTypes existing := by
    simp [Metadata.keepConnections, Interface.keepConnections, Metadata.keepOutputTypes,
      Interface.keepOutputTypes, Function.comp_def]
  cases first with
  | connections => cases second <;> first | rfl | exact outputs
  | outputTypes => cases second <;> first | rfl | exact outputs.symm
  | info => cases second <;> rfl

private theorem runAll_run (passes : List Pass) (pass : Pass) (new : Metadata) :
    runAll existing passes (pass.run existing new) =
      pass.run existing (runAll existing passes new) := by
  induction passes generalizing new with
  | nil => rfl
  | cons first rest ih =>
    calc runAll existing (first :: rest) (pass.run existing new)
        = runAll existing rest (pass.run existing (first.run existing new)) := by
          rw [run_comm pass first]
          rfl
      _ = pass.run existing (runAll existing (first :: rest) new) := ih _

/-- A pass that is among those that ran adds nothing. -/
private theorem run_runAll {passes : List Pass} {pass : Pass} (member : pass ∈ passes)
    (new : Metadata) :
    pass.run existing (runAll existing passes new) = runAll existing passes new := by
  induction passes generalizing new with
  | nil => cases member
  | cons first rest ih =>
    rcases List.mem_cons.mp member with rfl | later
    · calc pass.run existing (runAll existing (pass :: rest) new)
          = runAll existing rest (pass.run existing (pass.run existing new)) :=
            (runAll_run rest pass _).symm
        _ = runAll existing (pass :: rest) new := by
          rw [run_run]
          rfl
    · exact ih later _

/-- Passes that are all among those that ran add nothing. -/
private theorem runAll_runAll {passes more : List Pass} (among : ∀ pass ∈ more, pass ∈ passes)
    (new : Metadata) :
    runAll existing more (runAll existing passes new) = runAll existing passes new := by
  induction more with
  | nil => rfl
  | cons pass rest ih =>
    have head : pass.run existing (runAll existing passes new) = runAll existing passes new :=
      run_runAll (among pass List.mem_cons_self) new
    have tail := ih fun other member => among other (List.mem_cons_of_mem pass member)
    calc runAll existing (pass :: rest) (runAll existing passes new)
        = runAll existing rest (pass.run existing (runAll existing passes new)) := rfl
      _ = runAll existing passes new := by rw [head, tail]

private theorem runAll_comm (passes more : List Pass) (new : Metadata) :
    runAll existing more (runAll existing passes new) =
      runAll existing passes (runAll existing more new) := by
  induction more generalizing new with
  | nil => rfl
  | cons pass rest ih =>
    calc runAll existing (pass :: rest) (runAll existing passes new)
        = runAll existing rest (runAll existing passes (pass.run existing new)) := by
          rw [runAll_run]
          rfl
      _ = runAll existing passes (runAll existing (pass :: rest) new) := ih _

/-- Runs of the same passes give the same document, however often each one runs and when. -/
private theorem runAll_congr {passes more : List Pass} (same : ∀ pass, pass ∈ passes ↔ pass ∈ more)
    (new : Metadata) : runAll existing passes new = runAll existing more new := by
  calc runAll existing passes new
      = runAll existing more (runAll existing passes new) :=
        (runAll_runAll (fun pass member => (same pass).mpr member) new).symm
    _ = runAll existing passes (runAll existing more new) := runAll_comm passes more new
    _ = runAll existing more new := runAll_runAll (fun pass member => (same pass).mp member) new

/-- The passes of a merge, in the order in which it runs them. -/
private theorem merge_eq_runAll (new existing : Metadata) :
    new.merge existing = runAll existing [.connections, .outputTypes, .info] new := rfl

end Pass

/-- A document whose names occur once takes nothing over from itself. -/
private theorem merge_self {d : Metadata}
    (inputNames : (d.spec.interfaces.inputs.map (·.name)).Nodup)
    (outputNames : (d.spec.interfaces.outputs.map (·.name)).Nodup) : d.merge d = d := by
  have info : d.spec.info.keep d.spec.info = d.spec.info := by
    simp [Info.keep, keepText_self, fillText_self]
  simp [merge_eq, Interface.takeOver_self inputNames outputNames, keepText_self, info]

/-- What merging a document once, twice or pass by pass, and with itself, comes to. -/
structure MergeLaws (new existing : Metadata) : Prop where
  /-- A second merge with the same document changes nothing. -/
  again : (new.merge existing).merge existing = new.merge existing
  /-- The passes of a merge may run in any order, and each of them any number of times. -/
  anyOrder : ∀ passes : List Pass, (∀ pass, pass ∈ passes) →
    Pass.runAll existing passes new = new.merge existing
  /-- A document whose names occur once is left as it is by a merge with itself. -/
  itself : (new.spec.interfaces.inputs.map (·.name)).Nodup →
    (new.spec.interfaces.outputs.map (·.name)).Nodup → new.merge new = new

theorem merge_passes_independent (new existing : Metadata) : MergeLaws new existing where
  again := by
    -- The passes of the second merge are among those of the first one.
    rw [Pass.merge_eq_runAll new, Pass.merge_eq_runAll]
    exact Pass.runAll_runAll (fun _ member => member) new
  anyOrder := by
    intro passes all
    rw [Pass.merge_eq_runAll]
    refine Pass.runAll_congr (fun pass => ⟨fun _ => ?_, fun _ => all pass⟩) new
    cases pass <;> decide
  itself := merge_self

end Metadata
end Blueprint
