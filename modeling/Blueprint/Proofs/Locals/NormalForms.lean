import Blueprint.Proofs.Locals.Following
import Blueprint.Proofs.Locals.Selections
import Blueprint.Proofs.Locals.Truncation
import Mathlib.Logic.Relation
import Mathlib.Order.RelClasses

/-!
# Normal forms and the end of resolution

What an expression denotes is a normal form: no parentheses, no traversal and no name of a local,
but an expression that stands in the one it was reached from or in the value of a local, at a depth
between the one it was reached from and `maxHops`. Collecting strings goes on in components of
normal forms, so that every call goes deeper or, at the same depth, into a strict subexpression
(`Descends`). This order is well-founded whatever the locals of a body are, and along it every
string that is collected turns out to be a literal of the expression or of a local.
-/

namespace Blueprint.Locals

open Hcl

variable {body : Body}

/-! ## Subexpressions -/

/-- The expressions that resolution goes into from another one: what stands in parentheses, an item
of a list, a value of an object, an argument of a call. -/
inductive Component : Expr → Expr → Prop where
  | inner {inner : Expr} : Component inner (.paren inner)
  | item {items : List Expr} {item : Expr} : item ∈ items → Component item (.array items)
  | value {entries : List (Key × Expr)} {key : Key} {value : Expr} :
      (key, value) ∈ entries → Component value (.object entries)
  | arg {namespaces : List String} {function : String} {args : List Expr} {expandLast : Bool}
      {arg : Expr} : arg ∈ args → Component arg (.call namespaces function args expandLast)

/-- A subexpression of an expression, which may be the expression itself. -/
abbrev Inside (part whole : Expr) : Prop :=
  Relation.ReflTransGen Component part whole

abbrev StrictlyInside (part whole : Expr) : Prop :=
  Relation.TransGen Component part whole

private theorem Component.size_lt {part whole : Expr} (component : Component part whole) :
    sizeOf part < sizeOf whole := by
  cases component with
  | inner => simp
  | item member =>
    have inItems := List.sizeOf_lt_of_mem member
    simp only [Expr.array.sizeOf_spec]
    omega
  | value member =>
    have inEntries := List.sizeOf_lt_of_mem member
    simp only [Expr.object.sizeOf_spec, Prod.mk.sizeOf_spec] at *
    omega
  | arg member =>
    have inArgs := List.sizeOf_lt_of_mem member
    simp only [Expr.call.sizeOf_spec]
    omega

private theorem StrictlyInside.size_lt {part whole : Expr} (inside : StrictlyInside part whole) :
    sizeOf part < sizeOf whole := by
  induction inside with
  | single component => exact component.size_lt
  | tail _ component ih => exact ih.trans component.size_lt

private theorem inside_strip (e : Expr) : Inside e.strip e := by
  fun_induction Expr.strip e with
  | case1 inner ih => exact ih.tail .inner
  | case2 e notParen => exact .refl

private theorem component_of_select? {x entry : Expr} {step : Selector}
    (chosen : select? x step = some entry) : Component entry x := by
  rcases part_of_select? chosen with ⟨items, rfl, member⟩ | ⟨entries, key, rfl, member⟩
  · exact .item member
  · exact .value member

/-- Where resolution can come to from an expression: inside it, or inside the value of a local. -/
def Origin (body : Body) (e part : Expr) : Prop :=
  Inside part e ∨ ∃ name value, body.local? name = some value ∧ Inside part value

private theorem Origin.refl (e : Expr) : Origin body e e :=
  .inl .refl

private theorem Origin.trans {e between part : Expr} (first : Origin body e between)
    (second : Origin body between part) : Origin body e part := by
  rcases second with inside | fromLocal
  · rcases first with inside' | ⟨name, value, found, inside'⟩
    · exact .inl (inside.trans inside')
    · exact .inr ⟨name, value, found, inside.trans inside'⟩
  · exact .inr fromLocal

private theorem Origin.of_local {e value : Expr} {name : String}
    (found : body.local? name = some value) :
    Origin body e value :=
  .inr ⟨name, value, found, .refl⟩

private theorem Component.origin {part whole : Expr} (component : Component part whole) :
    Origin body whole part :=
  .inl (.single component)

/-! ## Normal forms -/

private theorem origin_of_reach {hops left : Nat} {e x : Expr} {steps : List Selector}
    (reached : reach body hops e steps = some (x, left)) : Origin body e x := by
  -- A reference goes on in the value of a local, and every other step in a component.
  fun_induction reach body hops e steps with
  | case1 steps inner hops ih => exact Component.inner.origin.trans (ih reached)
  | case2 steps name value hops found ih => exact (Origin.of_local found).trans (ih reached)
  | case3 steps name value found => cases reached
  | case4 steps name hops missing empty =>
    obtain ⟨rfl, rfl⟩ : .ident name = x ∧ hops = left := by simpa using reached
    exact .refl _
  | case5 steps name hops missing more => cases reached
  | case6 steps name selectors value hops found ih =>
    exact (Origin.of_local found).trans (ih reached)
  | case7 steps name more hops missing => cases reached
  | case8 hops steps root selectors other => cases reached
  | case9 e hops notParen notIdent notLocal notTraversal =>
    obtain ⟨rfl, rfl⟩ : e = x ∧ hops = left := by simpa using reached
    exact .refl _
  | case10 e hops notParen notIdent notLocal notTraversal step steps entry found ih =>
    exact (component_of_select? found).origin.trans (ih reached)
  | case11 e hops notParen notIdent notLocal notTraversal step steps missing => cases reached

private theorem left_le_of_reach {hops left : Nat} {e x : Expr} {steps : List Selector}
    (reached : reach body hops e steps = some (x, left)) : left ≤ hops := by
  rcases reach_left_lt_or_size_le reached with spent | ⟨kept, _⟩
  · exact spent.le
  · exact kept.le

/-- Where no hop was spent and no step was taken, only parentheses were taken away. -/
private theorem eq_strip_of_reach {hops left : Nat} {e x : Expr} {steps : List Selector}
    (reached : reach body hops e steps = some (x, left)) (kept : left = hops) (none : steps = []) :
    x = e.strip := by
  -- A reference spends a hop that is never given back, so that the cases with one contradict `kept`.
  fun_induction reach body hops e steps with
  | case1 steps inner hops ih => exact ih reached kept none
  | case2 steps name value hops found ih =>
    have spent := left_le_of_reach reached
    omega
  | case3 steps name value found => cases reached
  | case4 steps name hops missing empty =>
    obtain ⟨rfl, -⟩ : .ident name = x ∧ hops = left := by simpa using reached
    rfl
  | case5 steps name hops missing more => cases reached
  | case6 steps name selectors value hops found ih =>
    have spent := left_le_of_reach reached
    omega
  | case7 steps name more hops missing => cases reached
  | case8 hops steps root selectors other => cases reached
  | case9 e hops notParen notIdent notLocal notTraversal =>
    obtain ⟨rfl, -⟩ : e = x ∧ hops = left := by simpa using reached
    rw [Expr.strip]
    exact notParen
  | case10 e hops notParen notIdent notLocal notTraversal step steps entry found ih => cases none
  | case11 e hops notParen notIdent notLocal notTraversal step steps missing => cases reached

/-- What an expression at a depth denotes. -/
structure NormalForm (body : Body) (depth : Nat) (e x : Expr) (reached : Nat) : Prop where
  deeper : depth ≤ reached
  bounded : reached ≤ maxHops
  final : Final body x
  origin : Origin body e x
  /-- Only a reference leads deeper, and only a reference leads out of the expression. -/
  stripped : reached = depth → x = e.strip

private theorem derefAt_eq_some_iff {depth reached : Nat} {e x : Expr} :
    derefAt body depth e = some (x, reached) ↔
      ∃ hops left, depth + hops = maxHops ∧ reached + left = maxHops ∧
        deref body hops e = some (x, left) := by
  constructor
  · intro denoted
    by_cases deep : maxHops < depth
    · rw [derefAt_of_tooDeep deep] at denoted
      cases denoted
    · have depths : depth + (maxHops - depth) = maxHops := by omega
      rw [derefAt_of_add depths, Option.map_eq_some_iff] at denoted
      obtain ⟨⟨x', left⟩, found, same⟩ := denoted
      obtain ⟨rfl, rfl⟩ : x' = x ∧ maxHops - left = reached := by simpa [inDepth] using same
      have within := left_le_of_reach found
      exact ⟨_, left, depths, by omega, found⟩
  · rintro ⟨hops, left, depths, depths', found⟩
    rw [derefAt_of_add depths, found]
    obtain rfl : maxHops - left = reached := by omega
    rfl

private theorem normalForm_of_derefAt {depth reached : Nat} {e x : Expr}
    (denoted : derefAt body depth e = some (x, reached)) : NormalForm body depth e x reached := by
  obtain ⟨hops, left, depths, depths', found⟩ := derefAt_eq_some_iff.mp denoted
  have within := left_le_of_reach found
  constructor
  case deeper => omega
  case bounded => omega
  case final => exact final_of_reach found
  case origin => exact origin_of_reach found
  case stripped =>
    intro same
    exact eq_strip_of_reach found (by omega) rfl

/-! ## Recursive calls -/

/-- The entry of a map that a call of `lookup` selects, at a depth. -/
def lookupAt (body : Body) (depth : Nat) (map key : Expr) : Option (Expr × Nat) := do
  let key ← key.literalString?
  let (map, reached) ← derefAt body depth map
  let entry ← map.member? key
  return (entry, reached)

/-- What a call of `lookup` stands for: the entry that it selects, or else its default. -/
def lookedUp (body : Body) (depth : Nat) : List Expr → Option (Expr × Nat)
  | map :: key :: rest =>
    (lookupAt body depth map key).or (rest.head?.map fun default => (default, depth))
  | _ => none

/-- The expressions that collecting goes on with from a normal form. -/
def calleesOf (body : Body) (depth : Nat) : Expr → List (Expr × Nat)
  | .array items => items.map fun item => (item, depth)
  | .object entries => entries.map fun entry => (entry.2, depth)
  | .call [] function args _ =>
    if function ∈ listFunctions then args.map fun arg => (arg, depth)
    else if function = "lookup" then (lookedUp body depth args).toList
    else []
  | _ => []

/-- The expressions that collecting from an expression goes on with, each at its own depth, in the
order in which they are met. -/
def callees (body : Body) (depth : Nat) (e : Expr) : List (Expr × Nat) :=
  match derefAt body depth e with
  | some (x, reached) => calleesOf body reached x
  | none => []

/-- The string literal that an expression itself denotes at a depth. -/
def literalAt? (body : Body) (depth : Nat) (e : Expr) : Option String :=
  (derefAt body depth e).bind fun reached => reached.1.literalString?

private theorem lookupAt_of_add {depth hops : Nat} (depths : depth + hops = maxHops)
    (map key : Expr) :
    lookupAt body depth map key = (lookupMember? body hops map key).map inDepth := by
  simp only [lookupAt, lookupMember?, derefAt_of_add depths]
  cases key.literalString? with
  | none => rfl
  | some key =>
    cases deref body hops map with
    | none => rfl
    | some reached => cases h : reached.1.member? key <;> simp [inDepth, h]

private theorem collectAt_of_add {depth hops : Nat} (depths : depth + hops = maxHops) (e : Expr) :
    collectAt body depth e = collect body hops e := by
  obtain rfl : maxHops - depth = hops := by omega
  exact if_pos (by omega)

private theorem collectAt_lookedUp {depth hops : Nat} (depths : depth + hops = maxHops)
    (args : List Expr) :
    ((lookedUp body depth args).toList.flatMap fun callee => collectAt body callee.2 callee.1) =
      match args with
      | map :: key :: rest =>
        match lookupMember? body hops map key with
        | some (entry, left) => collect body left entry
        | none =>
          match rest with
          | default :: _ => collect body hops default
          | [] => []
      | _ => [] := by
  rcases args with _ | ⟨map, _ | ⟨key, rest⟩⟩
  · rfl
  · rfl
  · rw [lookedUp, lookupAt_of_add depths]
    cases found : lookupMember? body hops map key with
    | none => cases rest <;> simp [found, collectAt_of_add depths]
    | some pair =>
      obtain ⟨entry, left⟩ := pair
      -- The entry is gone into with the hops that are left, and these are no more than before.
      obtain ⟨_, _, _, denoted, _⟩ := lookupMember?_eq_some_iff.mp found
      have within := left_le_of_reach denoted
      have depths' : maxHops - left + left = maxHops := by omega
      simp [found, inDepth, collectAt_of_add depths']

/-- Collecting gives the literal that an expression itself denotes, or else what its callees
give. -/
private theorem collectAt_eq (depth : Nat) (e : Expr) :
    collectAt body depth e =
      (literalAt? body depth e).toList ++
        (callees body depth e).flatMap fun callee => collectAt body callee.2 callee.1 := by
  by_cases deep : maxHops < depth
  · simp [collectAt, literalAt?, callees, derefAt_of_tooDeep deep, Nat.not_le.mpr deep]
  · have depths : depth + (maxHops - depth) = maxHops := by omega
    rw [collectAt_of_add depths, collect_eq, literalAt?, callees, derefAt_of_add depths]
    cases found : deref body (maxHops - depth) e with
    | none => rfl
    | some reached =>
      obtain ⟨x, left⟩ := reached
      have within := left_le_of_reach found
      have depths' : maxHops - left + left = maxHops := by omega
      have onward (part : Expr) : collectAt body (maxHops - left) part = collect body left part :=
        collectAt_of_add depths' part
      simp only [Option.map_some, Option.bind_some, inDepth]
      -- Only literals, collections and calls without a namespace give anything.
      cases x with
      | array items => simp [calleesOf, Expr.literalString?, List.flatMap_map, onward]
      | object entries => simp [calleesOf, Expr.literalString?, List.flatMap_map, onward]
      | call namespaces function args expandLast =>
        cases namespaces with
        | cons first others => simp [calleesOf, Expr.literalString?]
        | nil =>
          by_cases list : function ∈ listFunctions
          · simp [calleesOf, Expr.literalString?, list, List.flatMap_map, onward]
          · by_cases isLookup : function = "lookup"
            · subst isLookup
              simp only [calleesOf, Expr.literalString?, list, if_true, if_false,
                collectAt_lookedUp depths']
              rfl
            · simp [calleesOf, Expr.literalString?, list, isLookup]
      | _ => simp [calleesOf]

/-! ## Where the calls go -/

/-- Collecting went on from one expression to another one: deeper, within the bound, or at the same
depth in a strict subexpression. -/
def Descends (depth : Nat) (e : Expr) (depth' : Nat) (e' : Expr) : Prop :=
  (depth < depth' ∧ depth' ≤ maxHops) ∨ (depth' = depth ∧ StrictlyInside e' e)

private theorem Descends.trans {depth depth' depth'' : Nat} {e e' e'' : Expr}
    (first : Descends depth e depth' e') (second : Descends depth' e' depth'' e'') :
    Descends depth e depth'' e'' := by
  rcases first with ⟨deeper, bounded⟩ | ⟨rfl, inside⟩
  · rcases second with ⟨deeper', bounded'⟩ | ⟨rfl, _⟩
    · exact .inl ⟨deeper.trans deeper', bounded'⟩
    · exact .inl ⟨deeper, bounded⟩
  · rcases second with deeper | ⟨rfl, inside'⟩
    · exact .inl deeper
    · exact .inr ⟨rfl, inside'.trans inside⟩

/-- From an expression to a component of what it denotes. -/
private theorem NormalForm.descends {depth reached : Nat} {e x part : Expr}
    (normal : NormalForm body depth e x reached) (component : Component part x) :
    Descends depth e reached part := by
  by_cases same : reached = depth
  · obtain rfl := normal.stripped same
    exact .inr ⟨same, .head' component (inside_strip e)⟩
  · have deeper := normal.deeper
    exact .inl ⟨by omega, normal.bounded⟩

private theorem wellFounded_descends :
    WellFounded fun callee caller : Expr × Nat =>
      Descends caller.2 caller.1 callee.2 callee.1 := by
  -- The hops that are left go down with the depth, and sizes go down within a depth.
  have lex := WellFounded.prod_lex Nat.lt_wfRel.wf Nat.lt_wfRel.wf
  apply Subrelation.wf ?_ (InvImage.wf (fun call : Expr × Nat => (maxHops - call.2, sizeOf call.1)) lex)
  rintro ⟨callee, depth'⟩ ⟨caller, depth⟩ (⟨deeper, bounded⟩ | ⟨same, inside⟩)
  · have fewer : maxHops - depth' < maxHops - depth := by omega
    exact Prod.Lex.left _ _ fewer
  · obtain rfl : depth' = depth := same
    exact Prod.Lex.right _ inside.size_lt

/-- A callee comes from a component of a normal form: it is the component itself, or else a
component of the map that the component denotes. -/
inductive ComesFrom (body : Body) (depth : Nat) (part : Expr) : Expr × Nat → Prop where
  | itself : ComesFrom body depth part (part, depth)
  | entry {map entry : Expr} {reached : Nat} : derefAt body depth part = some (map, reached) →
      Component entry map → ComesFrom body depth part (entry, reached)

private theorem component_of_lookupAt {depth onward : Nat} {map key entry : Expr}
    (found : lookupAt body depth map key = some (entry, onward)) :
    ComesFrom body depth map (entry, onward) := by
  simp only [lookupAt, Option.bind_eq_bind, Option.bind_eq_some_iff] at found
  obtain ⟨text, _, ⟨x, reached⟩, denoted, part, chosen, same⟩ := found
  obtain ⟨rfl, rfl⟩ : part = entry ∧ reached = onward := by simpa using same
  have byField : select? x (.field text) = some part := chosen
  exact .entry denoted (component_of_select? byField)

private theorem exists_arg_of_lookedUp {depth : Nat} {args : List Expr} {callee : Expr × Nat}
    (found : lookedUp body depth args = some callee) :
    ∃ arg ∈ args, ComesFrom body depth arg callee := by
  unfold lookedUp at found
  split at found
  · next map key rest =>
    rcases Option.or_eq_some_iff.mp found with selected | ⟨_, fallback⟩
    · exact ⟨map, by simp, component_of_lookupAt selected⟩
    · obtain ⟨default, first, rfl⟩ := Option.map_eq_some_iff.mp fallback
      have member := List.mem_of_head? first
      exact ⟨default, by simp [member], .itself⟩
  · cases found

private theorem component_of_mem_calleesOf {depth : Nat} {x : Expr} {callee : Expr × Nat}
    (member : callee ∈ calleesOf body depth x) :
    ∃ part, Component part x ∧ ComesFrom body depth part callee := by
  unfold calleesOf at member
  split at member
  · next items =>
    obtain ⟨item, inItems, rfl⟩ := List.mem_map.mp member
    exact ⟨item, .item inItems, .itself⟩
  · next entries =>
    obtain ⟨⟨key, value⟩, inEntries, rfl⟩ := List.mem_map.mp member
    exact ⟨value, .value inEntries, .itself⟩
  · next function args expandLast =>
    split at member
    · obtain ⟨arg, inArgs, rfl⟩ := List.mem_map.mp member
      exact ⟨arg, .arg inArgs, .itself⟩
    · split at member
      · obtain ⟨arg, inArgs, comes⟩ := exists_arg_of_lookedUp (Option.mem_toList.mp member)
        exact ⟨arg, .arg inArgs, comes⟩
      · cases member
  · cases member

private theorem exists_of_mem_callees {depth : Nat} {e : Expr} {callee : Expr × Nat}
    (member : callee ∈ callees body depth e) :
    ∃ x reached part, NormalForm body depth e x reached ∧ Component part x ∧
      ComesFrom body reached part callee := by
  unfold callees at member
  split at member
  · next x reached denoted =>
    obtain ⟨part, component, comes⟩ := component_of_mem_calleesOf member
    exact ⟨x, reached, part, normalForm_of_derefAt denoted, component, comes⟩
  · cases member

private theorem descends_of_mem_callees {depth : Nat} {e : Expr} {callee : Expr × Nat}
    (member : callee ∈ callees body depth e) : Descends depth e callee.2 callee.1 := by
  obtain ⟨x, reached, part, normal, component, comes⟩ := exists_of_mem_callees member
  have first := normal.descends component
  cases comes with
  | itself => exact first
  | entry denoted inMap => exact first.trans ((normalForm_of_derefAt denoted).descends inMap)

private theorem origin_of_mem_callees {depth : Nat} {e : Expr} {callee : Expr × Nat}
    (member : callee ∈ callees body depth e) : Origin body e callee.1 := by
  obtain ⟨x, reached, part, normal, component, comes⟩ := exists_of_mem_callees member
  have first : Origin body e part := normal.origin.trans component.origin
  cases comes with
  | itself => exact first
  | entry denoted inMap =>
    exact first.trans ((normalForm_of_derefAt denoted).origin.trans inMap.origin)

private theorem wellFounded_callees (body : Body) :
    WellFounded fun callee caller : Expr × Nat => callee ∈ callees body caller.2 caller.1 :=
  Subrelation.wf descends_of_mem_callees wellFounded_descends

/-- Every string that is collected is a literal in the expression or in the value of a local. -/
private theorem exists_literal_of_mem_collectAt {text : String} (call : Expr × Nat) :
    text ∈ collectAt body call.2 call.1 →
      ∃ part, Origin body call.1 part ∧ part.literalString? = some text := by
  -- The induction is along the calls, since neither sizes nor depths alone go down.
  induction call using (wellFounded_callees body).induction with
  | _ call ih =>
    intro member
    rw [collectAt_eq] at member
    rcases List.mem_append.mp member with own | further
    · obtain ⟨⟨x, reached⟩, denoted, literal⟩ :=
        Option.bind_eq_some_iff.mp (Option.mem_toList.mp own)
      exact ⟨x, (normalForm_of_derefAt denoted).origin, literal⟩
    · obtain ⟨callee, called, inCallee⟩ := List.mem_flatMap.mp further
      obtain ⟨part, origin, literal⟩ := ih callee called inCallee
      exact ⟨part, (origin_of_mem_callees called).trans origin, literal⟩

/-! ## Main result -/

/-- How resolution goes in a body, and that it ends. -/
structure EndsNormally (body : Body) : Prop where
  /-- References are followed to an end from everywhere, and there is one result. -/
  defined : ∀ depth e, ∃! result, Follows body depth e result
  /-- The result is the one that is computed. -/
  denotes : ∀ {depth : Nat} {e : Expr} {result : Option (Expr × Nat)},
    Follows body depth e result ↔ derefAt body depth e = result
  /-- What is reached is a normal form, and not too deep. -/
  normal : ∀ {depth reached : Nat} {e x : Expr}, derefAt body depth e = some (x, reached) →
    NormalForm body depth e x reached
  /-- Collecting calls itself on the callees of an expression, and on nothing else. -/
  calls : ∀ depth e, collectAt body depth e = (literalAt? body depth e).toList ++
    (callees body depth e).flatMap fun callee => collectAt body callee.2 callee.1
  /-- A call goes deeper, or at the same depth into a strict subexpression. -/
  descends : ∀ {depth : Nat} {e : Expr} {callee : Expr × Nat}, callee ∈ callees body depth e →
    (depth < callee.2 ∧ callee.2 ≤ maxHops) ∨ (callee.2 = depth ∧ StrictlyInside callee.1 e)
  /-- There is no endless chain of calls. -/
  terminates : WellFounded fun callee caller : Expr × Nat => callee ∈ callees body caller.2 caller.1
  /-- Every string is a literal of the expression or of a local. -/
  literal : ∀ {depth : Nat} {e : Expr} {text : String}, text ∈ collectAt body depth e →
    ∃ part, Origin body e part ∧ part.literalString? = some text

/-- Resolution ends from every expression at every depth, in every body, and it ends in normal
forms. -/
theorem resolution_ends_normally (body : Body) : EndsNormally body where
  defined := by
    intro depth e
    refine ⟨derefAt body depth e, follows_derefAt depth e, ?_⟩
    intro result follows
    exact (follows_iff.mp follows).symm
  denotes := follows_iff
  normal := normalForm_of_derefAt
  calls := collectAt_eq
  descends := descends_of_mem_callees
  terminates := wellFounded_callees body
  literal := by
    intro depth e text member
    exact exists_literal_of_mem_collectAt (e, depth) member

/-- Two locals that refer to each other, and a list that contains itself. -/
def circularLocals : Body :=
  [.block "locals" []
    [.assign "a" (.ident "b"), .assign "b" (reference "a" []),
      .assign "roles" (.array [.string "roles/viewer", .ident "roles"])]]

/-- Locals that refer to each other denote nothing. -/
example : derefAt circularLocals 0 (.ident "a") = none := by
  cbv

/-- A list that contains itself is gone into again, but deeper. -/
example :
    callees circularLocals 7 (.ident "roles") = [(.string "roles/viewer", 8), (.ident "roles", 8)] ∧
    callees circularLocals 8 (.ident "roles") = [] := by
  constructor <;> cbv

end Blueprint.Locals
