import Blueprint.Proofs.Locals.Idioms
import Mathlib.Data.List.TakeWhile

/-!
# Following references

What an expression denotes, derived by rules: one rule for each kind of expression and for each way
in which a step of a traversal can go on. The rules count the references that were followed, up to
`maxHops`, where `Locals.deref` counts those that may still be followed. Every expression has a
derivation at every depth, and its result is the one of `deref` (`follows_iff`), so that following
references ends wherever it starts, also where locals refer to themselves.
-/

namespace Blueprint.Locals

open Hcl

variable {body : Body}

mutual
/-- An expression that is met after a number of references denotes another one, together with the
number of references that lead there, or nothing. -/
inductive Follows (body : Body) : Nat → Expr → Option (Expr × Nat) → Prop
  | tooDeep {depth : Nat} {e : Expr} : maxHops < depth → Follows body depth e none
  | paren {depth : Nat} {inner : Expr} {result : Option (Expr × Nat)} : depth ≤ maxHops →
      Follows body depth inner result → Follows body depth (.paren inner) result
  | named {depth : Nat} {name : String} {value : Expr} {result : Option (Expr × Nat)} :
      depth ≤ maxHops → body.local? name = some value → Follows body (depth + 1) value result →
      Follows body depth (.ident name) result
  | unnamed {depth : Nat} {name : String} : depth ≤ maxHops → body.local? name = none →
      Follows body depth (.ident name) (some (.ident name, depth))
  | reference {depth : Nat} {name : String} {steps : List Selector} {value : Expr}
      {between result : Option (Expr × Nat)} : depth ≤ maxHops → body.local? name = some value →
      Follows body (depth + 1) value between → Selects body between steps result →
      Follows body depth (.traversal (.ident "local") (.field name :: steps)) result
  | missing {depth : Nat} {name : String} {steps : List Selector} : depth ≤ maxHops →
      body.local? name = none →
      Follows body depth (.traversal (.ident "local") (.field name :: steps)) none
  | foreign {depth : Nat} {root : Expr} {selectors : List Selector} : depth ≤ maxHops →
      (∀ name steps, root = .ident "local" → selectors ≠ .field name :: steps) →
      Follows body depth (.traversal root selectors) none
  | itself {depth : Nat} {e : Expr} : depth ≤ maxHops → (∀ inner, e ≠ .paren inner) →
      (∀ name, e ≠ .ident name) → (∀ root selectors, e ≠ .traversal root selectors) →
      Follows body depth e (some (e, depth))

/-- The steps of a traversal lead from what was reached to what they select. The first step that has
to be computed ends the selection. -/
inductive Selects (body : Body) :
    Option (Expr × Nat) → List Selector → Option (Expr × Nat) → Prop
  | lost {steps : List Selector} : Selects body none steps none
  | done {reached : Expr × Nat} : Selects body (some reached) [] (some reached)
  | computed {reached : Expr × Nat} {step : Selector} {steps : List Selector} :
      isStatic step = false → Selects body (some reached) (step :: steps) (some reached)
  | absent {x : Expr} {depth : Nat} {step : Selector} {steps : List Selector} :
      isStatic step = true → select? x step = none →
      Selects body (some (x, depth)) (step :: steps) none
  | entry {x entry : Expr} {depth : Nat} {step : Selector} {steps : List Selector}
      {between result : Option (Expr × Nat)} : isStatic step = true →
      select? x step = some entry → Follows body depth entry between →
      Selects body between steps result → Selects body (some (x, depth)) (step :: steps) result
end

/-! ## One result at most -/

mutual
private theorem Follows.unique {depth : Nat} {e : Expr} {result other : Option (Expr × Nat)} :
    Follows body depth e result → Follows body depth e other → result = other
  | .tooDeep deep, second => by
    -- A rule that gives a result needs the depth to be within the bound.
    cases second with
    | tooDeep | missing | foreign => rfl
    | paren within | named within | unnamed within | reference within | itself within => omega
  | .paren within first, second => by
    cases second with
    | tooDeep deep => omega
    | paren _ second => exact first.unique second
    | itself _ notParen => exact absurd rfl (notParen _)
  | .named within found first, second => by
    cases second with
    | tooDeep deep => omega
    | named _ found' second =>
      cases found.symm.trans found'
      exact first.unique second
    | unnamed _ unknown => cases found.symm.trans unknown
    | itself _ _ notIdent => exact absurd rfl (notIdent _)
  | .unnamed within unknown, second => by
    cases second with
    | tooDeep deep => omega
    | named _ found => cases found.symm.trans unknown
    | unnamed => rfl
    | itself => rfl
  | .reference within found first selects, second => by
    cases second with
    | tooDeep deep => omega
    | reference _ found' second selects' =>
      cases found.symm.trans found'
      cases first.unique second
      exact selects.unique selects'
    | missing _ unknown => cases found.symm.trans unknown
    | foreign _ other => exact absurd rfl (other _ _ rfl)
    | itself _ _ _ notTraversal => exact absurd rfl (notTraversal _ _)
  | .missing within unknown, second => by
    cases second with
    | tooDeep | missing | foreign => rfl
    | reference _ found => cases found.symm.trans unknown
    | itself _ _ _ notTraversal => exact absurd rfl (notTraversal _ _)
  | .foreign within other, second => by
    cases second with
    | tooDeep | missing | foreign => rfl
    | reference => exact absurd rfl (other _ _ rfl)
    | itself _ _ _ notTraversal => exact absurd rfl (notTraversal _ _)
  | .itself within notParen notIdent notTraversal, second => by
    cases second with
    | tooDeep deep => omega
    | paren => exact absurd rfl (notParen _)
    | named => exact absurd rfl (notIdent _)
    | reference | missing | foreign => exact absurd rfl (notTraversal _ _)
    | unnamed | itself => rfl

private theorem Selects.unique {reached result other : Option (Expr × Nat)}
    {steps : List Selector} :
    Selects body reached steps result → Selects body reached steps other → result = other
  | .lost, .lost => rfl
  | .done, .done => rfl
  | .computed _, .computed _ => rfl
  | .computed computed, .absent static _ => by simp [computed] at static
  | .computed computed, .entry static _ _ _ => by simp [computed] at static
  | .absent static _, .computed computed => by simp [computed] at static
  | .absent _ _, .absent _ _ => rfl
  | .absent _ nothing, .entry _ chosen _ _ => by cases nothing.symm.trans chosen
  | .entry static _ _ _, .computed computed => by simp [computed] at static
  | .entry _ chosen _ _, .absent _ nothing => by cases nothing.symm.trans chosen
  | .entry _ chosen first selects, .entry _ chosen' second selects' => by
    cases chosen.symm.trans chosen'
    cases first.unique second
    exact selects.unique selects'
end

/-! ## A derivation everywhere -/

/-- Constant steps in front of others are taken first. -/
private theorem Selects.split {front back : List Selector} {reached result : Option (Expr × Nat)}
    (static : ∀ s ∈ front, isStatic s = true) (selects : Selects body reached (front ++ back) result) :
    ∃ between, Selects body reached front between ∧ Selects body between back result := by
  induction front generalizing reached with
  | nil =>
    cases reached with
    | none => exact ⟨none, .lost, selects⟩
    | some at? => exact ⟨some at?, .done, selects⟩
  | cons step front ih =>
    rw [List.forall_mem_cons] at static
    cases selects with
    | lost => exact ⟨none, .lost, .lost⟩
    | computed computed => simp [static.1] at computed
    | absent constant nothing => exact ⟨none, .absent constant nothing, .lost⟩
    | entry constant chosen follows onward =>
      obtain ⟨between, first, second⟩ := ih static.2 onward
      exact ⟨between, .entry constant chosen follows first, second⟩

/-- Only the steps before the first one that has to be computed are taken. -/
private theorem Selects.of_takeWhile {steps : List Selector} {reached result : Option (Expr × Nat)}
    (selects : Selects body reached (steps.takeWhile isStatic) result) :
    Selects body reached steps result := by
  induction steps generalizing reached with
  | nil => exact selects
  | cons step steps ih =>
    by_cases static : isStatic step = true
    · rw [List.takeWhile_cons_of_pos static] at selects
      cases selects with
      | lost => exact .lost
      | computed computed => exact .computed computed
      | absent constant nothing => exact .absent constant nothing
      | entry constant chosen follows onward =>
        exact .entry constant chosen follows (ih onward)
    · rw [List.takeWhile_cons_of_neg static] at selects
      -- Nothing is taken, so that what was reached before is the result.
      cases selects with
      | lost => exact .lost
      | done => exact .computed (by simpa using static)

/-- What was reached, with the references that were followed in place of the hops that are left. -/
def inDepth (reached : Expr × Nat) : Expr × Nat :=
  (reached.1, maxHops - reached.2)

/-- What `reach` finds is found by the rules: first what the expression denotes, then what the steps
select from that. -/
private theorem exists_follows_of_reach {depth hops : Nat} {e : Expr} {steps : List Selector}
    (depths : depth + hops = maxHops) (static : ∀ s ∈ steps, isStatic s = true) :
    ∃ between, Follows body depth e between ∧
      Selects body between steps ((reach body hops e steps).map inDepth) := by
  have within : depth ≤ maxHops := by omega
  fun_induction reach body hops e steps generalizing depth with
  | case1 steps inner hops ih =>
    obtain ⟨between, follows, selects⟩ := ih depths static within
    exact ⟨between, .paren within follows, selects⟩
  | case2 steps name value hops found ih =>
    obtain ⟨between, follows, selects⟩ := @ih (depth + 1) (by omega) static (by omega)
    exact ⟨between, .named within found follows, selects⟩
  | case3 steps name value found => exact ⟨none, .named within found (.tooDeep (by omega)), .lost⟩
  | case4 steps name hops missing empty =>
    obtain rfl := List.isEmpty_iff.mp empty
    obtain rfl : maxHops - hops = depth := by omega
    exact ⟨_, .unnamed within missing, .done⟩
  | case5 steps name hops missing more =>
    cases steps with
    | nil => exact absurd rfl more
    | cons step steps =>
      exact ⟨_, .unnamed within missing, .absent (static step (by simp)) (select?_ident name step)⟩
  | case6 steps name more value hops found ih =>
    have inParts : ∀ s ∈ more.takeWhile isStatic ++ steps, isStatic s = true := by
      intro s member
      rcases List.mem_append.mp member with own | later
      · exact List.mem_takeWhile_imp own
      · exact static s later
    obtain ⟨reached, follows, selects⟩ := @ih (depth + 1) (by omega) inParts (by omega)
    -- The steps of the reference itself come before those that are still to be taken.
    obtain ⟨between, own, later⟩ := selects.split fun s member => List.mem_takeWhile_imp member
    exact ⟨between, .reference within found follows own.of_takeWhile, later⟩
  | case7 steps name more hops missing =>
    cases found : body.local? name with
    | none => exact ⟨none, .missing within found, .lost⟩
    | some value =>
      cases hops with
      | zero => exact ⟨none, .reference within found (.tooDeep (by omega)) .lost, .lost⟩
      | succ hops => exact (missing value hops found rfl).elim
  | case8 hops steps root selectors other =>
    exact ⟨none, .foreign within other, .lost⟩
  | case9 e hops notParen notIdent notLocal notTraversal =>
    obtain rfl : maxHops - hops = depth := by omega
    exact ⟨_, .itself within notParen notIdent notTraversal, .done⟩
  | case10 e hops notParen notIdent notLocal notTraversal step steps entry found ih =>
    obtain ⟨between, follows, selects⟩ :=
      ih depths (fun s member => static s (by simp [member])) within
    exact ⟨_, .itself within notParen notIdent notTraversal,
      .entry (static step (by simp)) found follows selects⟩
  | case11 e hops notParen notIdent notLocal notTraversal step steps missing =>
    exact ⟨_, .itself within notParen notIdent notTraversal,
      .absent (static step (by simp)) missing⟩

/-! ## The result -/

/-- What an expression denotes after a number of references, of which `maxHops` are followed at
most. -/
def derefAt (body : Body) (depth : Nat) (e : Expr) : Option (Expr × Nat) :=
  if depth ≤ maxHops then (deref body (maxHops - depth) e).map inDepth else none

theorem derefAt_of_add {depth hops : Nat} (depths : depth + hops = maxHops) (e : Expr) :
    derefAt body depth e = (deref body hops e).map inDepth := by
  obtain rfl : maxHops - depth = hops := by omega
  exact if_pos (by omega)

theorem derefAt_of_tooDeep {depth : Nat} (deep : maxHops < depth) (e : Expr) :
    derefAt body depth e = none :=
  if_neg (by omega)

theorem follows_derefAt (depth : Nat) (e : Expr) : Follows body depth e (derefAt body depth e) := by
  by_cases within : depth ≤ maxHops
  · have depths : depth + (maxHops - depth) = maxHops := by omega
    obtain ⟨between, follows, selects⟩ :=
      @exists_follows_of_reach body depth _ e [] depths (by simp)
    rw [derefAt_of_add depths, deref]
    generalize (reach body (maxHops - depth) e []).map inDepth = result at selects ⊢
    -- No step is left, so that what was reached in between is the result.
    cases selects with
    | lost => exact follows
    | done => exact follows
  · have deep : maxHops < depth := by omega
    rw [derefAt_of_tooDeep deep]
    exact .tooDeep deep

/-- The rules give what `deref` does, and nothing else. -/
theorem follows_iff {depth : Nat} {e : Expr} {result : Option (Expr × Nat)} :
    Follows body depth e result ↔ derefAt body depth e = result := by
  constructor
  · intro follows
    exact (follows_derefAt depth e).unique follows
  · rintro rfl
    exact follows_derefAt depth e

end Blueprint.Locals
