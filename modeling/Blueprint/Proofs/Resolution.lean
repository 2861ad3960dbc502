import Blueprint.Proofs.OutputTypes
import Mathlib.Algebra.GroupWithZero.Nat

/-!
# Runs of type resolution

Outputs are given types by any number of calls, each with a source of its own that answers with a
state or fails. What a single call does is said by `Call.Answered`; what a run of calls keeps is
said pointwise by `Becomes`, under which an output keeps everything but a missing type. Counts add
up, since an output that has become typed is left alone from then on.
-/

namespace Blueprint.State

/-! ## Resolution in place -/

/-- Gives types to the outputs from a place on, one after the other, where they stand. -/
def assignInPlace {m : Type → Type} [Monad m] (types : SortedMap Value) (place : Nat) :
    (remaining : Nat) → StateT (List Output) m Nat
  | 0 => return 0
  | remaining + 1 => do
    let outputs ← get
    let here ← match outputs[place]? with
      | none => pure 0
      | some output =>
        match output.type, types.get? output.name with
        | none, some type => do
          set (outputs.set place { output with type := some type })
          pure 1
        | _, _ => pure 0
    let later ← assignInPlace types (place + 1) remaining
    return later + here

/-- Finds types for outputs where they stand. What was changed stays changed, also where the call
fails after that. -/
def resolveInPlace {m : Type → Type} [Monad m] (retrieve : String → m (Except Error ByteArray))
    (path : String) : StateT (List Output) m (Except Error Nat) := do
  if (← get).all fun output => output.type.isSome then return .ok 0
  match ← retrieve path with
  | .error error => return .error error
  | .ok bytes =>
    match outputTypes path bytes with
    | .error error => return .error error
    | .ok types => return .ok (← assignInPlace types 0 (← get).length)

/-- What is left of outputs when their types were looked for: those from before after a failure. -/
def settle (outputs : List Output) :
    Except Error (Nat × List Output) → Except Error Nat × List Output
  | .ok (count, typed) => (.ok count, typed)
  | .error error => (.error error, outputs)

section InPlace

variable {m : Type → Type} [Monad m] [LawfulMonad m]

/-- Behind the outputs that were gone through, the others get their types. -/
private theorem run_assignInPlace (types : SortedMap Value) (done rest : List Output) :
    (assignInPlace (m := m) types done.length rest.length).run (done ++ rest) =
      pure ((assignTypes types rest).1, done ++ (assignTypes types rest).2) := by
  -- What was gone through grows by the output at the current place, with its type or as it was.
  induction rest generalizing done with
  | nil => simp [assignInPlace, assignTypes]
  | cons output rest ih =>
    have next (new : Output) := ih (done ++ [new])
    simp only [List.length_append, List.length_singleton, List.append_assoc,
      List.singleton_append] at next
    have here : (done ++ output :: rest)[done.length]? = some output := by simp
    simp only [List.length_cons, assignInPlace, StateT.run_bind, StateT.run_get, pure_bind, here]
    rw [assignTypes]
    cases output.type <;> cases types.get? output.name <;> simp [next]

/-- Looking for types in place leaves what looking for them returns, and after a failure nothing
else than before. -/
private theorem run_resolveInPlace (retrieve : String → m (Except Error ByteArray)) (path : String)
    (outputs : List Output) :
    (resolveInPlace retrieve path).run outputs =
      settle outputs <$> resolveTypes retrieve path outputs := by
  unfold resolveInPlace resolveTypes
  rw [StateT.run_bind, StateT.run_get, pure_bind]
  split
  · simp [settle]
  · simp only [StateT.run_bind, StateT.run_monadLift, monadLift_self, bind_assoc, pure_bind,
      map_bind]
    refine bind_congr fun answer => ?_
    rcases answer with error | bytes
    · simp [settle]
    · cases read : outputTypes path bytes with
      | error error => simp [settle, Except.map, read]
      | ok types =>
        have assigned := run_assignInPlace (m := m) types [] outputs
        simp only [List.length_nil, List.nil_append] at assigned
        simp [settle, Except.map, read, assigned]

end InPlace

/-! ## One call -/

/-- The answer of a source finds types for outputs. -/
def resolved (path : String) (outputs : List Output) (answer : Except Error ByteArray) :
    Except Error (Nat × List Output) :=
  answer.bind fun bytes => (outputTypes path bytes).map fun types => assignTypes types outputs

/-- Whatever retrieving a state does, it is done at most once and nothing else is. -/
private theorem resolveTypes_eq {m : Type → Type} [Monad m] [LawfulMonad m]
    (retrieve : String → m (Except Error ByteArray)) (path : String) (outputs : List Output) :
    resolveTypes retrieve path outputs =
      if outputs.all fun output => output.type.isSome then pure (.ok (0, outputs))
      else resolved path outputs <$> retrieve path := by
  unfold resolveTypes
  split
  · rfl
  · rw [map_eq_pure_bind]
    refine bind_congr fun answer => ?_
    cases answer <;> rfl

/-- A call: where a state is asked for, and the source that is asked. -/
structure Call where
  path : String
  source : StateSource

/-- What a call ends with: the number of outputs that got a type, or why it failed; the paths that
the source was asked for; and the outputs as they are then. -/
structure Report where
  result : Except Error Nat
  asked : List String
  outputs : List Output

namespace Call

/-- The source of a call, which notes the paths that it is asked for. -/
def noting (call : Call) (path : String) : StateM (List String) (Except Error ByteArray) := do
  modify (path :: ·)
  return call.source path

/-- Does a call on outputs where they stand. -/
def report (call : Call) (outputs : List Output) : Report :=
  let done := ((resolveInPlace call.noting call.path).run outputs).run []
  { result := done.1.1, asked := done.2, outputs := done.1.2 }

/-- What a call reports is what looking for types returns, and what it leaves after a failure. -/
private theorem run_resolveTypes_eq (call : Call) (outputs : List Output) :
    (resolveTypes call.noting call.path outputs).run [] =
      ((call.report outputs).result.map fun count => (count, (call.report outputs).outputs),
        (call.report outputs).asked) := by
  rw [report, run_resolveInPlace]
  generalize resolveTypes call.noting call.path outputs = resolve
  rw [StateT.run_map]
  obtain ⟨_ | _, asked⟩ := resolve.run []
  · rfl
  · rfl

private theorem report_eq (call : Call) (outputs : List Output) :
    call.report outputs =
      if outputs.all fun output => output.type.isSome then ⟨.ok 0, [], outputs⟩
      else
        let settled := settle outputs (resolved call.path outputs (call.source call.path))
        ⟨settled.1, [call.path], settled.2⟩ := by
  rw [report, run_resolveInPlace, resolveTypes_eq]
  split <;> rfl

end Call

/-- An output with the type that a state has for its name, unless it has one. -/
def typedBy (types : SortedMap Value) (output : Output) : Output :=
  { output with type := output.type.or (types.get? output.name) }

/-- How many outputs of a list differ from those in their places before. -/
def changed (before after : List Output) : Nat :=
  (before.zip after).countP fun pair => pair.1 != pair.2

private theorem assignTypes_eq (types : SortedMap Value) (outputs : List Output) :
    assignTypes types outputs =
      (changed outputs (outputs.map (typedBy types)), outputs.map (typedBy types)) := by
  induction outputs with
  | nil => rfl
  | cons output rest ih =>
    simp only [assignTypes, ih, List.map_cons, changed, List.zip_cons_cons, List.countP_cons]
    obtain ⟨name, description, type, connections⟩ := output
    cases type with
    | some type => simp [typedBy]
    | none => cases found : types.get? name <;> simp [typedBy, found]

/-- What a call may end with. -/
inductive Call.Ends (call : Call) (outputs : List Output) : Report → Prop where
  /-- Nothing is asked for where every output has its type. -/
  | idle (typed : ∀ output ∈ outputs, output.type.isSome = true) :
      Ends call outputs ⟨.ok 0, [], outputs⟩
  | unretrieved {error : Error} (untyped : ∃ output ∈ outputs, output.type = none)
      (failed : call.source call.path = .error error) :
      Ends call outputs ⟨.error error, [call.path], outputs⟩
  | invalid {bytes : ByteArray} {error : Error} (untyped : ∃ output ∈ outputs, output.type = none)
      (answered : call.source call.path = .ok bytes)
      (refused : outputTypes call.path bytes = .error error) :
      Ends call outputs ⟨.error error, [call.path], outputs⟩
  | resolved {bytes : ByteArray} {types : SortedMap Value}
      (untyped : ∃ output ∈ outputs, output.type = none)
      (answered : call.source call.path = .ok bytes)
      (read : outputTypes call.path bytes = .ok types) :
      Ends call outputs ⟨.ok (changed outputs (outputs.map (typedBy types))), [call.path],
        outputs.map (typedBy types)⟩

private theorem Call.ends_report (call : Call) (outputs : List Output) :
    call.Ends outputs (call.report outputs) := by
  rw [report_eq]
  -- In the order of the call: is anything untyped, does the source answer, and is the answer a
  -- state.
  by_cases typed : ∀ output ∈ outputs, output.type.isSome = true
  · rw [if_pos (List.all_eq_true.mpr typed)]
    exact .idle typed
  · have untyped : ∃ output ∈ outputs, output.type = none := by simpa using typed
    rw [if_neg (by simpa using typed)]
    cases answered : call.source call.path with
    | error error => exact .unretrieved untyped answered
    | ok bytes =>
      cases read : outputTypes call.path bytes with
      | error error =>
        simp only [settle, resolved, Except.bind, read, Except.map]
        exact .invalid untyped answered read
      | ok types =>
        simp only [settle, resolved, Except.bind, read, Except.map, assignTypes_eq]
        exact .resolved untyped answered read

/-! ## What calls keep -/

/-- An output that may have been given a type: nothing else of it has changed, and a type that it
had is the one that it has. -/
structure Becomes (before after : Output) : Prop where
  untyped : after.untyped = before.untyped
  kept : ∀ type, before.type = some type → after.type = some type

namespace Becomes

private theorem refl (output : Output) : Becomes output output :=
  ⟨rfl, fun _ => id⟩

private theorem trans {first second third : Output} (early : Becomes first second)
    (late : Becomes second third) : Becomes first third :=
  ⟨late.untyped.trans early.untyped, fun type had => late.kept type (early.kept type had)⟩

private theorem typedBy (types : SortedMap Value) (output : Output) :
    Becomes output (State.typedBy types output) :=
  ⟨rfl, fun type had => by simp [State.typedBy, had]⟩

/-- An output has changed exactly when it has got a type. -/
private theorem ne_iff {before after : Output} (becomes : Becomes before after) :
    before ≠ after ↔ before.type = none ∧ after.type ≠ none := by
  obtain ⟨name, description, type, connections⟩ := before
  obtain ⟨name', description', type', connections'⟩ := after
  obtain ⟨same, kept⟩ := becomes
  simp only [Output.untyped, Output.mk.injEq] at same kept ⊢
  obtain ⟨rfl, rfl, -, rfl⟩ := same
  -- Only the type can differ, and only from none.
  cases type with
  | none => simp [eq_comm]
  | some type => simp [kept type rfl]

end Becomes

/-- Outputs that may have been given types, in the same order. -/
abbrev AllBecome (before after : List Output) : Prop :=
  List.Forall₂ Becomes before after

private theorem allBecome_refl (outputs : List Output) : AllBecome outputs outputs :=
  List.forall₂_same.mpr fun output _ => .refl output

private theorem AllBecome.trans {first second third : List Output} (early : AllBecome first second)
    (late : AllBecome second third) : AllBecome first third := by
  induction early generalizing third with
  | nil => exact late
  | cons head _ ih =>
    cases late with
    | cons head' tail => exact .cons (head.trans head') (ih tail)

private theorem allBecome_map_typedBy (types : SortedMap Value) (outputs : List Output) :
    AllBecome outputs (outputs.map (typedBy types)) :=
  List.forall₂_map_right_iff.mpr (List.forall₂_same.mpr fun output _ => .typedBy types output)

/-- How many outputs of a list have got a type. -/
def newlyTyped (before after : List Output) : Nat :=
  (before.zip after).countP fun pair => pair.1.type.isNone && pair.2.type.isSome

private theorem AllBecome.changed_eq {before after : List Output}
    (become : AllBecome before after) :
    changed before after = newlyTyped before after := by
  induction become with
  | nil => rfl
  | @cons output output' _ _ head _ ih =>
    unfold changed newlyTyped at ih ⊢
    rw [List.zip_cons_cons, List.countP_cons, List.countP_cons, ih]
    congr 1
    have gained : (output != output') = (output.type.isNone && output'.type.isSome) := by
      rw [Bool.eq_iff_iff, bne_iff_ne, head.ne_iff]
      simp [Option.ne_none_iff_isSome]
    rw [gained]

/-- Outputs get their types one after the other: none of them twice. -/
private theorem AllBecome.newlyTyped_trans {first second third : List Output}
    (early : AllBecome first second) (late : AllBecome second third) :
    newlyTyped first third = newlyTyped first second + newlyTyped second third := by
  induction early generalizing third with
  | nil => simp [newlyTyped]
  | @cons a b _ _ head _ ih =>
    cases late with
    | @cons _ c _ _ head' tail =>
      have tails := ih tail
      unfold newlyTyped at tails ⊢
      simp only [List.zip_cons_cons, List.countP_cons, tails]
      -- Of three versions of an output, the first that has a type is where it is counted.
      cases ha : a.type with
      | some type => simp [head.kept type ha, head'.kept type (head.kept type ha)]
      | none =>
        cases hb : b.type with
        | some type => simp [head'.kept type hb]; omega
        | none => simp; omega

private theorem newlyTyped_self (outputs : List Output) : newlyTyped outputs outputs = 0 := by
  induction outputs with
  | nil => rfl
  | cons output rest ih =>
    unfold newlyTyped at ih ⊢
    cases h : output.type <;> simp [ih, h]

/-- A call leaves every output as it was or gives it a type that it had not. -/
private theorem Call.allBecome_report (call : Call) (outputs : List Output) :
    AllBecome outputs (call.report outputs).outputs := by
  have ends := call.ends_report outputs
  revert ends
  generalize call.report outputs = report
  rintro (_ | _ | _ | _)
  case resolved => exact allBecome_map_typedBy _ outputs
  all_goals exact allBecome_refl outputs

/-- What holds of every call on any outputs. -/
structure Call.Answered (call : Call) (outputs : List Output) : Prop where
  /-- A call returns what it reports; the outputs only where it succeeds. -/
  returned : (resolveTypes call.noting call.path outputs).run [] =
    ((call.report outputs).result.map fun count => (count, (call.report outputs).outputs),
      (call.report outputs).asked)
  /-- The source is asked once, or not at all where every output has its type. -/
  asked : (call.report outputs).asked =
    if outputs.all fun output => output.type.isSome then [] else [call.path]
  /-- A call fails where a state is needed and there is none, or none that is a JSON object. -/
  fails : (∃ error, (call.report outputs).result = .error error) ↔
    (∃ output ∈ outputs, output.type = none) ∧
      ((∃ error, call.source call.path = .error error) ∨
        ∃ bytes, call.source call.path = .ok bytes ∧ ∀ fields, read? bytes ≠ some (.object fields))
  /-- A call that fails changes nothing. -/
  failed : ∀ error, (call.report outputs).result = .error error →
    (call.report outputs).outputs = outputs
  /-- A call that succeeds counts the outputs that it changes. It gives untyped outputs the types
  that the state has for their names, or changes nothing where there are none. -/
  succeeded : ∀ count, (call.report outputs).result = .ok count →
    count = changed outputs (call.report outputs).outputs ∧
      (((∀ output ∈ outputs, output.type.isSome = true) ∧
          (call.report outputs).outputs = outputs) ∨
        ∃ bytes types, call.source call.path = .ok bytes ∧
          outputTypes call.path bytes = .ok types ∧
          (call.report outputs).outputs = outputs.map (typedBy types))
  /-- After a call that succeeded, the same answer changes nothing. -/
  repeated : ∀ count, (call.report outputs).result = .ok count →
    ∀ again : Call, again.source again.path = call.source call.path →
      (again.report (call.report outputs).outputs).result = .ok 0 ∧
        (again.report (call.report outputs).outputs).outputs = (call.report outputs).outputs

private theorem changed_self (outputs : List Output) : changed outputs outputs = 0 := by
  rw [(allBecome_refl outputs).changed_eq, newlyTyped_self]

private theorem map_typedBy_again (types : SortedMap Value) (outputs : List Output) :
    (outputs.map (typedBy types)).map (typedBy types) = outputs.map (typedBy types) := by
  rw [List.map_map]
  refine List.map_congr_left fun output _ => ?_
  simp only [Function.comp_apply, typedBy]
  cases output.type <;> simp

private theorem Call.report_of_typed (call : Call) {outputs : List Output}
    (typed : ∀ output ∈ outputs, output.type.isSome = true) :
    call.report outputs = ⟨.ok 0, [], outputs⟩ := by
  rw [report_eq, if_pos (List.all_eq_true.mpr typed)]

/-- The answer by which outputs were typed has nothing for them any more. -/
private theorem Call.report_map_typedBy {call : Call} {bytes : ByteArray} {path : String}
    {types : SortedMap Value} (answered : call.source call.path = .ok bytes)
    (read : outputTypes path bytes = .ok types) (outputs : List Output) :
    (call.report (outputs.map (typedBy types))).result = .ok 0 ∧
      (call.report (outputs.map (typedBy types))).outputs = outputs.map (typedBy types) := by
  -- The path only occurs in errors, so it does not matter which one was asked for.
  have same : outputTypes call.path bytes = .ok types :=
    outputTypes_eq_ok_iff.mpr (outputTypes_eq_ok_iff.mp read)
  have ends := call.ends_report (outputs.map (typedBy types))
  generalize call.report (outputs.map (typedBy types)) = report at ends
  cases ends with
  | idle typed => exact ⟨rfl, rfl⟩
  | unretrieved untyped failed => simp [answered] at failed
  | invalid untyped answered' refused =>
    obtain rfl : bytes = _ := by simpa [answered] using answered'
    simp [same] at refused
  | resolved untyped answered' read' =>
    obtain rfl : bytes = _ := by simpa [answered] using answered'
    obtain rfl : types = _ := by simpa [same] using read'
    rw [map_typedBy_again, changed_self]
    exact ⟨rfl, rfl⟩

/-- Whether a source gives no state: it fails, or its bytes are no JSON object. -/
private theorem outputTypes_refuses_iff {path : String} {bytes : ByteArray} :
    (∃ error, outputTypes path bytes = .error error) ↔
      ∀ fields, read? bytes ≠ some (.object fields) := by
  simp [exists_error_iff, outputTypes_eq_ok_iff]

private theorem Call.answered (call : Call) (outputs : List Output) : call.Answered outputs := by
  have returned := call.run_resolveTypes_eq outputs
  have ends := call.ends_report outputs
  generalize reported : call.report outputs = report at ends
  -- Every part of the statement is read off from the way the call ended.
  cases ends with
  | idle typed =>
    have none : ¬ ∃ output ∈ outputs, output.type = none := by
      rintro ⟨output, member, untyped⟩
      simpa [untyped] using typed output member
    constructor <;> simp only [reported]
    case returned => rw [returned, reported]
    case asked => rw [if_pos (List.all_eq_true.mpr typed)]
    case fails => simp [none]
    case failed => simp
    case succeeded =>
      rintro _ ⟨⟩
      exact ⟨(changed_self outputs).symm, .inl ⟨typed, trivial⟩⟩
    case repeated =>
      intro _ _ again _
      rw [again.report_of_typed typed]
      exact ⟨rfl, rfl⟩
  | unretrieved untyped failed =>
    constructor <;> simp only [reported]
    case returned => rw [returned, reported]
    case asked => rw [if_neg (by simpa using untyped)]
    case fails => simp [untyped, failed]
    case failed => simp
    case succeeded => simp
    case repeated => simp
  | @invalid bytes error untyped answered refused =>
    have invalid := outputTypes_refuses_iff.mp ⟨error, refused⟩
    constructor <;> simp only [reported]
    case returned => rw [returned, reported]
    case asked => rw [if_neg (by simpa using untyped)]
    case fails => simpa [untyped, answered] using invalid
    case failed => simp
    case succeeded => simp
    case repeated => simp
  | @resolved bytes types untyped answered read =>
    obtain ⟨fields, isObject, -⟩ := outputTypes_eq_ok_iff.mp read
    constructor <;> simp only [reported]
    case returned => rw [returned, reported]
    case asked => rw [if_neg (by simpa using untyped)]
    case fails => simp [answered, isObject]
    case failed => simp
    case succeeded =>
      rintro _ ⟨⟩
      exact ⟨rfl, .inr ⟨bytes, types, answered, read, rfl⟩⟩
    case repeated =>
      intro _ _ again same
      exact report_map_typedBy (same.trans answered) read outputs

/-! ## Runs -/

/-- The number of outputs that a call reports to have got a type. -/
def Report.count (report : Report) : Nat :=
  report.result.toOption.getD 0

/-- The reports of calls, each on the outputs that the one before it left. -/
def reports (outputs : List Output) : List Call → List Report
  | [] => []
  | call :: rest => call.report outputs :: reports (call.report outputs).outputs rest

/-- The outputs after calls. -/
def after (outputs : List Output) (calls : List Call) : List Output :=
  calls.foldl (fun outputs call => (call.report outputs).outputs) outputs

private theorem allBecome_after (outputs : List Output) (calls : List Call) :
    AllBecome outputs (after outputs calls) := by
  induction calls generalizing outputs with
  | nil => exact allBecome_refl outputs
  | cons call rest ih => exact (call.allBecome_report outputs).trans (ih _)

private theorem Call.count_report (call : Call) (outputs : List Output) :
    (call.report outputs).count = newlyTyped outputs (call.report outputs).outputs := by
  -- A call that fails counts nothing, and changes nothing that could be counted.
  cases result : (call.report outputs).result with
  | ok count =>
    obtain ⟨rfl, -⟩ := (call.answered outputs).succeeded count result
    rw [Report.count, result, ← (call.allBecome_report outputs).changed_eq]
    rfl
  | error error =>
    rw [(call.answered outputs).failed error result, newlyTyped_self, Report.count, result]
    rfl

/-- The counts of a run add up to the number of outputs that got a type in it. -/
private theorem sum_count_reports (outputs : List Output) (calls : List Call) :
    ((reports outputs calls).map Report.count).sum = newlyTyped outputs (after outputs calls) := by
  induction calls generalizing outputs with
  | nil => exact (newlyTyped_self outputs).symm
  | cons call rest ih =>
    calc ((reports outputs (call :: rest)).map Report.count).sum
        = newlyTyped outputs (call.report outputs).outputs +
            newlyTyped (call.report outputs).outputs
              (after (call.report outputs).outputs rest) := by
          rw [reports, List.map_cons, List.sum_cons, ih, call.count_report]
      _ = newlyTyped outputs (after outputs (call :: rest)) :=
          ((call.allBecome_report outputs).newlyTyped_trans (allBecome_after _ rest)).symm

/-- Finding types is monotone and atomic over any run of calls: every call, on whatever outputs the
ones before it left, does all or nothing; no later call changes a type that is set, nor anything
else of an output; and the counts of a run add up. -/
theorem resolution_monotone_atomic (outputs : List Output) :
    (∀ (before : List Call) (call : Call) (later : List Call),
      call.Answered (after outputs before) ∧
        AllBecome (after outputs (before ++ [call])) (after outputs (before ++ call :: later))) ∧
    ∀ calls : List Call,
      AllBecome outputs (after outputs calls) ∧
        ((reports outputs calls).map Report.count).sum =
          newlyTyped outputs (after outputs calls) := by
  refine ⟨fun before call later => ⟨call.answered _, ?_⟩, fun calls => ?_⟩
  · have split : after outputs (before ++ call :: later) =
        after (after outputs (before ++ [call])) later := by simp [after]
    rw [split]
    exact allBecome_after _ later
  · exact ⟨allBecome_after outputs calls, sum_count_reports outputs calls⟩

end Blueprint.State
