import Blueprint.Proofs.Locals.Idioms
import Mathlib.Data.List.TakeWhile

/-!
# Selections

Every further step of a traversal narrows what is collected from it, and never brings anything in. A
constant step goes from what the traversal denotes to one of its parts, with the hops that are left
there; the strings of that part are collected without a gap when the whole is. A step that has to be
computed ends the selection, so that it and all steps behind it leave the strings as they are.
-/

namespace Blueprint.Locals

open Hcl

variable {body : Body}

/-! ## Parts of a collection -/

/-- What a step selects is an item of a list or a value of an object. -/
theorem part_of_select? {x entry : Expr} {step : Selector} (chosen : select? x step = some entry) :
    (∃ items, x = .array items ∧ entry ∈ items) ∨
      ∃ entries key, x = .object entries ∧ (key, entry) ∈ entries := by
  have item {index : Nat} (chosen : item? index x = some entry) :
      ∃ items, x = .array items ∧ entry ∈ items := by
    cases x with
    | array items => exact ⟨items, rfl, List.mem_of_getElem? chosen⟩
    | _ => cases chosen
  have member {key : String} (chosen : x.member? key = some entry) :
      ∃ entries key, x = .object entries ∧ (key, entry) ∈ entries := by
    cases x with
    | object entries =>
      obtain ⟨⟨key, _⟩, found, rfl⟩ := Option.map_eq_some_iff.mp chosen
      exact ⟨entries, key, rfl, List.mem_of_find?_eq_some found⟩
    | _ => cases chosen
  -- A number selects an item, and everything else that is constant selects by a key.
  unfold select? at chosen
  split at chosen
  · exact .inr (member chosen)
  · exact .inl (item chosen)
  · obtain ⟨index, -, chosen⟩ := Option.bind_eq_some_iff.mp chosen
    exact .inl (item chosen)
  · obtain ⟨key, -, chosen⟩ := Option.bind_eq_some_iff.mp chosen
    exact .inr (member chosen)
  · cases chosen
  · cases chosen

private theorem infix_flatMap_of_mem {α β : Type} {item : α} {items : List α} (f : α → List β)
    (member : item ∈ items) : f item <:+: items.flatMap f := by
  rw [List.flatMap_def]
  apply List.infix_of_mem_flatten
  exact List.mem_map_of_mem member

/-- What is collected from a selected part stands together in what is collected from the whole. -/
private theorem infix_collect_part {hops left : Nat} {e x entry : Expr} {step : Selector}
    (reached : deref body hops e = some (x, left)) (chosen : select? x step = some entry) :
    collect body left entry <:+: collect body hops e := by
  rw [collect_eq body hops e, reached]
  rcases part_of_select? chosen with ⟨items, rfl, member⟩ | ⟨entries, key, rfl, member⟩
  · exact infix_flatMap_of_mem (collect body left) member
  · exact infix_flatMap_of_mem (fun entry => collect body left entry.2) member

private theorem collect_of_deref_eq_none {hops : Nat} {e : Expr}
    (unknown : deref body hops e = none) :
    collect body hops e = [] := by
  rw [collect_eq, unknown]

/-! ## Steps that have to be computed -/

/-- A step that cannot be told without evaluation: an index that is no literal, or a splat. -/
inductive Computed : Selector → Prop where
  | index {e : Expr} : (∀ n, e ≠ .number n) → e.literalString? = none → Computed (.index e)
  | fieldSplat : Computed .fieldSplat
  | splat : Computed .splat

private theorem Computed.isStatic_eq_false {step : Selector} (computed : Computed step) :
    isStatic step = false := by
  cases computed with
  | index notNumber notText => exact not_isStatic_index notNumber notText
  | fieldSplat => rfl
  | splat => rfl

private theorem isStatic_of_not_computed {step : Selector} (constant : ¬ Computed step) :
    isStatic step = true := by
  cases step with
  | field name => rfl
  | position index => rfl
  | fieldSplat => exact absurd .fieldSplat constant
  | splat => exact absurd .splat constant
  | index e =>
    by_cases isNumber : ∃ n, e = .number n
    · obtain ⟨n, rfl⟩ := isNumber
      rfl
    · cases literal : e.literalString? with
      | none => exact absurd (.index (fun n same => isNumber ⟨n, same⟩) literal) constant
      | some key => exact (select?_index literal e).1

/-- No step behind one that has to be computed is taken. -/
private theorem takeWhile_append_of_computed {steps : List Selector} {s : Selector}
    (step : Selector)
    (member : s ∈ steps ++ [step]) (computed : Computed s) :
    (steps ++ [step]).takeWhile isStatic = steps.takeWhile isStatic := by
  rw [List.takeWhile_append]
  split
  · next whole =>
    have same : steps.takeWhile isStatic = steps := (List.takeWhile_prefix _).eq_of_length whole
    have static := List.takeWhile_eq_self_iff.mp same
    -- The steps before are all constant, so it is the last one that has to be computed.
    rcases List.mem_append.mp member with before | last
    · exact absurd (static s before) (by simp [computed.isStatic_eq_false])
    · obtain rfl := List.mem_singleton.mp last
      rw [List.takeWhile_cons_of_neg (by simp [computed.isStatic_eq_false]), List.append_nil, same]
  · rfl

/-! ## One more step -/

/-- Where a step has to be computed, one more step makes no difference. -/
private theorem deref_reference_append_of_computed (hops : Nat) (name : String)
    {steps : List Selector}
    {s : Selector} (step : Selector) (member : s ∈ steps ++ [step]) (computed : Computed s) :
    deref body hops (reference name (steps ++ [step])) =
      deref body hops (reference name steps) := by
  rw [deref_reference, takeWhile_append_of_computed step member computed, ← deref_reference]

/-- One more constant step is taken from where the steps before it lead to. -/
private theorem deref_reference_append (hops : Nat) (name : String) {steps : List Selector}
    {step : Selector} (static : ∀ s ∈ steps ++ [step], isStatic s = true) :
    deref body hops (reference name (steps ++ [step])) =
      (deref body hops (reference name steps)).bind fun reached =>
        (select? reached.1 step).bind (deref body reached.2) := by
  have before : ∀ s ∈ steps, isStatic s = true := fun s member => static s (by simp [member])
  have inParts : deref body hops (reference name (steps ++ [step])) =
      (deref body hops (reference name steps)).bind fun reached =>
        reach body reached.2 reached.1 [step] := by
    rw [deref_reference, deref_reference hops name steps, List.takeWhile_eq_self_iff.mpr static,
      List.takeWhile_eq_self_iff.mpr before, Option.bind_assoc]
    simp only [reach_append]
  rw [inParts]
  apply Option.bind_congr
  intro reached denoted
  exact reach_select (final_of_reach denoted) reached.2 step

private theorem infix_collect_reference (hops : Nat) (name : String) {steps : List Selector}
    {step : Selector} (static : ∀ s ∈ steps ++ [step], isStatic s = true) :
    collect body hops (reference name (steps ++ [step])) <:+:
      collect body hops (reference name steps) := by
  cases extended : deref body hops (reference name (steps ++ [step])) with
  | none =>
    rw [collect_of_deref_eq_none extended]
    exact List.nil_infix
  | some reached =>
    -- The last step was taken from something that the steps before it reach.
    have onward := (deref_reference_append hops name static).symm.trans extended
    obtain ⟨⟨x, left⟩, denoted, onward⟩ := Option.bind_eq_some_iff.mp onward
    obtain ⟨entry, chosen, onward⟩ := Option.bind_eq_some_iff.mp onward
    rw [collect_of_deref_eq (extended.trans onward.symm)]
    exact infix_collect_part denoted chosen

/-- A traversal of anything but a local is not followed. -/
private theorem deref_traversal_eq_none {root : Expr} {first : Selector} (hops : Nat)
    (more : List Selector)
    (other : ¬ ∃ name, root = .ident "local" ∧ first = .field name) :
    deref body hops (.traversal root (first :: more)) = none := by
  rw [deref, reach]
  rintro name more' rfl same
  cases same
  exact other ⟨name, rfl, rfl⟩

/-- One more step of a traversal only narrows what it resolves to: the strings with the step are
neighbours among the strings without it, and all of them where the step has to be computed or stands
behind one that has to be. A traversal has at least its first step. -/
theorem strings_append_narrows (body : Body) (root : Expr) (first : Selector) (more : List Selector)
    (step : Selector) :
    strings body (.traversal root (first :: (more ++ [step]))) <:+:
        strings body (.traversal root (first :: more)) ∧
      ((∃ s ∈ first :: (more ++ [step]), Computed s) →
        strings body (.traversal root (first :: (more ++ [step]))) =
          strings body (.traversal root (first :: more))) := by
  by_cases followed : ∃ name, root = .ident "local" ∧ first = .field name
  · obtain ⟨name, rfl, rfl⟩ := followed
    by_cases computed : ∃ s ∈ more ++ [step], Computed s
    · obtain ⟨s, member, computed⟩ := computed
      have same : strings body (reference name (more ++ [step])) =
          strings body (reference name more) := by
        apply collect_of_deref_eq
        exact deref_reference_append_of_computed maxHops name step member computed
      exact ⟨same ▸ List.infix_rfl, fun _ => same⟩
    · have static : ∀ s ∈ more ++ [step], isStatic s = true := by
        intro s member
        apply isStatic_of_not_computed
        intro isComputed
        exact computed ⟨s, member, isComputed⟩
      refine ⟨infix_collect_reference maxHops name static, ?_⟩
      rintro ⟨s, member, isComputed⟩
      rcases List.mem_cons.mp member with rfl | member
      · cases isComputed
      · exact absurd ⟨s, member, isComputed⟩ computed
  · -- Nothing is followed, with or without the step.
    have nothing (steps : List Selector) :
        strings body (.traversal root (first :: steps)) = [] := by
      apply collect_of_deref_eq_none
      exact deref_traversal_eq_none maxHops steps followed
    rw [nothing, nothing]
    refine ⟨?_, fun _ => rfl⟩
    exact List.nil_infix

/-- The roles of two submodules, one of which keeps its list in a local of its own. -/
def rolesOfModules : Body :=
  [.block "locals" []
    [.assign "run" (.array [.string "roles/run.admin", .string "roles/run.invoker"]),
      .assign "roles" (.object
        [(.name "sql", .array [.string "roles/cloudsql.admin"]), (.name "run", .ident "run")])]]

/-- A selection goes on in the local that a selected value names, with the hops that are left. -/
example :
    deref rolesOfModules maxHops (reference "roles" [.field "run", .position 1]) =
      some (.string "roles/run.invoker", 6) := by
  cbv

end Blueprint.Locals
