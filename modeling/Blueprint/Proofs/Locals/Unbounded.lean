import Blueprint.Locals
import Blueprint.Proofs.Results

/-!
# Resolution without a bound

`Unbounded.collect` resolves like `Locals.collect` but counts nothing: it follows every reference it
meets, and it has no result where locals refer to themselves. Where no chain of references is longer
than the hops that are granted, counting them makes no difference. The invariant behind this is
`Within`: following a reference takes one hop and makes every chain that is left one shorter, and
any other step stays inside an expression, whose chains are chains of the whole.
-/

namespace Blueprint.Locals

open Hcl

/-- A name of a local stands in an expression where resolution can meet it: as the expression
itself, or in parentheses, items, values of objects and arguments of calls. -/
inductive Refers : Expr → String → Prop where
  | ident (name : String) : Refers (.ident name) name
  | traversal (name : String) (more : List Selector) :
      Refers (.traversal (.ident "local") (.field name :: more)) name
  | paren {inner : Expr} {name : String} : Refers inner name → Refers (.paren inner) name
  | item {items : List Expr} {item : Expr} {name : String} :
      item ∈ items → Refers item name → Refers (.array items) name
  | entry {entries : List (Key × Expr)} {entry : Key × Expr} {name : String} :
      entry ∈ entries → Refers entry.2 name → Refers (.object entries) name
  | arg {namespaces : List String} {function : String} {args : List Expr} {expandLast : Bool}
      {arg : Expr} {name : String} :
      arg ∈ args → Refers arg name → Refers (.call namespaces function args expandLast) name

/-- The names of locals on a path of references that starts in an expression. -/
inductive Chain (body : Body) : Expr → List String → Prop where
  | nil (e : Expr) : Chain body e []
  | cons {e value : Expr} {name : String} {names : List String} :
      Refers e name → body.local? name = some value → Chain body value names →
      Chain body e (name :: names)

/-- No chain of references from an expression is longer than the given number of hops. -/
def Within (body : Body) (hops : Nat) (e : Expr) : Prop :=
  ∀ names, Chain body e names → names.length ≤ hops

/-- A body in which references are followed without a bound. -/
abbrev Unbounded := Body

namespace Unbounded

mutual
/-- The expression that `e` denotes, if that can be told. There is no result at all where following
references does not end. -/
def deref (body : Unbounded) (e : Expr) : Option (Option Expr) :=
  match e with
  | .paren inner => body |>.deref inner
  | .ident name =>
    match body.local? name with
    | some value => body |>.deref value
    | none => some (some (.ident name))
  | .traversal (.ident "local") (.field name :: more) =>
    match body.local? name with
    | some value => do body |>.walk (← body |>.deref value) (more.takeWhile isStatic)
    | none => some none
  | .traversal .. => some none
  | e => some (some e)
partial_fixpoint

/-- The expression that constant steps lead to. What each step selects may be a reference again. -/
def walk (body : Unbounded) (e? : Option Expr) (steps : List Selector) : Option (Option Expr) :=
  match e?, steps with
  | none, _ => some none
  | some e, [] => some (some e)
  | some e, step :: steps =>
    match select? e step with
    | some entry => do body |>.walk (← body |>.deref entry) steps
    | none => some none
partial_fixpoint
end

def lookupMember? (body : Unbounded) (map key : Expr) : Option (Option Expr) :=
  match key.literalString? with
  | none => some none
  | some key => do return (← deref body map).bind (Expr.member? key)

def collect (body : Unbounded) (e : Expr) : Option (List String) := do
  match ← deref body e with
  | none => return []
  | some (.array items) => return (← items.mapM fun item => body |>.collect item).flatten
  | some (.object entries) => return (← entries.mapM fun entry => body |>.collect entry.2).flatten
  | some (.call [] function args _) =>
    if function ∈ listFunctions then
      return (← args.mapM fun arg => body |>.collect arg).flatten
    else if function = "lookup" then
      match args with
      | map :: key :: rest =>
        match (← lookupMember? body map key).or rest.head? with
        | some entry => body |>.collect entry
        | none => return []
      | _ => return []
    else return []
  | some e => return e.literalString?.toList
partial_fixpoint

/-- Steps may be taken in two parts. -/
theorem walk_append (body : Body) (e? : Option Expr) (front back : List Selector) :
    walk body e? (front ++ back) = (walk body e? front).bind fun e? => walk body e? back := by
  induction front generalizing e? with
  | nil => cases e? <;> simp [walk]
  | cons step rest ih =>
    cases e? with
    | none => simp [walk]
    | some e =>
      cases chosen : select? e step with
      | none => simp [walk, chosen]
      | some entry =>
        simp only [List.cons_append, walk, chosen]
        cases deref body entry with
        | none => rfl
        | some reached => exact ih reached

end Unbounded

/-- A part refers to nothing that the whole does not refer to. -/
private theorem Within.part {body : Body} {hops : Nat} {whole part : Expr}
    (within : Within body hops whole)
    (refers : ∀ name, Refers part name → Refers whole name) : Within body hops part := by
  intro names chain
  cases chain with
  | nil => exact Nat.zero_le hops
  -- The same chain starts in the whole.
  | cons reference found rest => exact within _ (.cons (refers _ reference) found rest)

/-- Following a reference takes a hop, and the chains that are left are shorter. -/
private theorem Within.follow {body : Body} {hops : Nat} {e value : Expr} {name : String}
    (within : Within body hops e) (reference : Refers e name)
    (found : body.local? name = some value) : ∃ left, hops = left + 1 ∧ Within body left value := by
  have positive := within [name] (.cons reference found (.nil value))
  obtain ⟨left, rfl⟩ : ∃ left, hops = left + 1 := ⟨hops - 1, by simp at positive; omega⟩
  refine ⟨left, rfl, fun names chain => ?_⟩
  have longer := within (name :: names) (.cons reference found chain)
  simpa using longer

/-- Chains start with a reference, so bounds on what is referred to give a bound one greater. -/
private theorem within_succ {body : Body} {hops : Nat} {e : Expr}
    (each : ∀ name value, Refers e name → body.local? name = some value → Within body hops value) :
    Within body (hops + 1) e := by
  intro names chain
  cases chain with
  | nil => exact Nat.zero_le _
  | cons reference found rest => exact Nat.succ_le_succ (each _ _ reference found _ rest)

private theorem within_ident {body : Body} {hops : Nat} {name : String} {value : Expr}
    (found : body.local? name = some value) (within : Within body hops value) :
    Within body (hops + 1) (.ident name) := by
  refine within_succ fun other target reference chosen => ?_
  cases reference
  obtain rfl : value = target := Option.some.inj (found.symm.trans chosen)
  exact within

private theorem Within.member {body : Body} {hops : Nat} {e entry : Expr} {key : String}
    (within : Within body hops e) (found : e.member? key = some entry) :
    Within body hops entry := by
  unfold Expr.member? at found
  split at found
  · obtain ⟨pair, chosen, rfl⟩ := Option.map_eq_some_iff.1 found
    exact within.part fun _ => .entry (List.mem_of_find?_eq_some chosen)
  · cases found

private theorem Within.item {body : Body} {hops index : Nat} {e entry : Expr}
    (within : Within body hops e) (found : item? index e = some entry) :
    Within body hops entry := by
  unfold item? at found
  split at found
  · exact within.part fun _ => .item (List.mem_of_getElem? found)
  · cases found

/-- What a constant step selects is a part. -/
private theorem Within.select {body : Body} {hops : Nat} {e entry : Expr} {step : Selector}
    (within : Within body hops e) (found : select? e step = some entry) :
    Within body hops entry := by
  unfold select? at found
  split at found
  · exact within.member found
  · exact within.item found
  · obtain ⟨_, _, chosen⟩ := Option.bind_eq_some_iff.1 found
    exact within.item chosen
  · obtain ⟨_, _, chosen⟩ := Option.bind_eq_some_iff.1 found
    exact within.member chosen
  · cases found
  · cases found

/-- Counting hops makes no difference to what an expression denotes, if there are enough of them,
and enough are left then. -/
private theorem reach_of_within {body : Body} {hops : Nat} {e : Expr} {steps : List Selector}
    (within : Within body hops e) :
    (Unbounded.deref body e).bind (fun e? => Unbounded.walk body e? steps) =
      some ((reach body hops e steps).map (·.1)) ∧
    ∀ x left, reach body hops e steps = some (x, left) → Within body left x := by
  -- Where `reach` spends a hop there is one, since there is a chain of at least one reference.
  fun_induction reach body hops e steps with
  | case1 steps inner hops ih =>
    rw [Unbounded.deref]
    exact ih (within.part fun _ => .paren)
  | case2 steps name value hops found ih =>
    obtain ⟨left, same, inside⟩ := within.follow (.ident name) found
    obtain rfl : hops = left := Nat.succ.inj same
    simp only [Unbounded.deref, found]
    exact ih inside
  | case3 steps name value found =>
    obtain ⟨left, same, _⟩ := within.follow (.ident name) found
    cases same
  | case4 steps name hops missing empty =>
    obtain rfl := List.isEmpty_iff.1 empty
    simp [Unbounded.deref, Unbounded.walk, missing, within]
  | case5 steps name hops missing more =>
    cases steps with
    | nil => exact absurd rfl more
    | cons step steps => simp [Unbounded.deref, Unbounded.walk, missing, select?_ident]
  | case6 steps name more value hops found ih =>
    obtain ⟨left, same, inside⟩ := within.follow (.traversal name more) found
    obtain rfl : hops = left := Nat.succ.inj same
    obtain ⟨agree, enough⟩ := ih inside
    refine ⟨?_, enough⟩
    -- The steps of the reference itself come before the steps that are still to be taken.
    rw [← agree]
    cases reached : Unbounded.deref body value with
    | none => simp [Unbounded.deref, found, reached]
    | some e? => simp [Unbounded.deref, found, reached, Unbounded.walk_append]
  | case7 steps name more hops missing =>
    cases found : body.local? name with
    | none => simp [Unbounded.deref, Unbounded.walk, found]
    | some value =>
      obtain ⟨left, same, _⟩ := within.follow (.traversal name more) found
      exact (missing value left found same).elim
  | case8 hops steps root selectors other =>
    simp [Unbounded.deref, Unbounded.walk]
  | case9 e hops notParen notIdent notLocal notTraversal =>
    simp [Unbounded.deref, Unbounded.walk, within]
  | case10 e hops notParen notIdent notLocal notTraversal step steps entry found ih =>
    obtain ⟨agree, enough⟩ := ih (within.select found)
    refine ⟨?_, enough⟩
    simpa [Unbounded.deref, Unbounded.walk, found] using agree
  | case11 e hops notParen notIdent notLocal notTraversal step steps missing =>
    simp [Unbounded.deref, Unbounded.walk, missing]

private theorem deref_of_within {body : Body} {hops : Nat} {e : Expr}
    (within : Within body hops e) :
    Unbounded.deref body e = some ((deref body hops e).map (·.1)) ∧
    ∀ x left, deref body hops e = some (x, left) → Within body left x := by
  obtain ⟨agree, enough⟩ := @reach_of_within body hops e [] within
  refine ⟨?_, enough⟩
  rw [deref, ← agree]
  cases Unbounded.deref body e with
  | none => rfl
  | some e? => cases e? <;> simp [Unbounded.walk]

private theorem deref_of_reached {body : Body} {hops left : Nat} {e x : Expr}
    (within : Within body hops e)
    (reached : deref body hops e = some (x, left)) :
    Unbounded.deref body e = some (some x) ∧ Within body left x := by
  obtain ⟨agree, enough⟩ := deref_of_within within
  rw [reached] at agree
  exact ⟨agree, enough x left reached⟩

private theorem lookupMember?_of_within {body : Body} {hops : Nat} {map : Expr} (key : Expr)
    (within : Within body hops map) :
    Unbounded.lookupMember? body map key =
      some ((lookupMember? body hops map key).map (·.1)) ∧
    ∀ entry left, lookupMember? body hops map key = some (entry, left) →
      Within body left entry := by
  obtain ⟨agree, enough⟩ := deref_of_within within
  unfold Unbounded.lookupMember? lookupMember?
  cases key.literalString? with
  | none => simp
  | some key =>
    -- Both find the same map, and an entry of it is within the bound if the map is.
    cases reached : deref body hops map with
    | none => simp [agree, reached]
    | some pair =>
      obtain ⟨x, rest⟩ := pair
      cases chosen : x.member? key with
      | none => simp [agree, reached, chosen]
      | some part =>
        refine ⟨by simp [agree, reached, chosen], fun entry left same => ?_⟩
        obtain ⟨rfl, rfl⟩ : part = entry ∧ rest = left := by simpa [chosen] using same
        exact (enough x rest reached).member chosen

/-- The parts of a list, of an object and of a call are collected alike. -/
private theorem mapM_collect {α : Type} {body : Body} {left : Nat} {items : List α}
    {part : α → Expr}
    (each : ∀ item ∈ items,
      Unbounded.collect body (part item) = some (collect body left (part item))) :
    (do return (← items.mapM fun item => Unbounded.collect body (part item)).flatten) =
      some (items.attach.flatMap fun item => collect body left (part item.1)) := by
  have attached : (items.attach.flatMap fun item => collect body left (part item.1)) =
      items.flatMap fun item => collect body left (part item) := by
    calc items.attach.flatMap (fun item => collect body left (part item.1))
        = (items.attach.map Subtype.val).flatMap fun item => collect body left (part item) := by
          rw [List.flatMap_map]
      _ = items.flatMap fun item => collect body left (part item) := by
          rw [List.attach_map_subtype_val]
  rw [mapM_eq_some_map each, attached, List.flatMap_def]
  rfl

/-- With enough hops for every chain of references, what is collected is what is collected without
counting them. -/
private theorem collect_of_within {body : Body} {hops : Nat} {e : Expr}
    (within : Within body hops e) :
    Unbounded.collect body e = some (collect body hops e) := by
  -- Whatever `e` denotes, what it denotes is bounded by the hops that are left, and so are the
  -- parts of that.
  fun_induction collect body hops e with
  | case1 hops e reached =>
    have agree := (deref_of_within within).1
    rw [Unbounded.collect, agree, reached]
    rfl
  | case2 hops e items left reached ih =>
    obtain ⟨agree, inside⟩ := deref_of_reached within reached
    rw [Unbounded.collect, agree]
    exact mapM_collect fun item member => ih item member (inside.part fun _ => .item member)
  | case3 hops e entries left reached ih =>
    obtain ⟨agree, inside⟩ := deref_of_reached within reached
    rw [Unbounded.collect, agree]
    exact mapM_collect fun entry member => ih entry member (inside.part fun _ => .entry member)
  | case4 hops e function args expandLast left reached list ih =>
    obtain ⟨agree, inside⟩ := deref_of_reached within reached
    rw [Unbounded.collect, agree]
    simp only [Option.bind_eq_bind, Option.bind_some, list, if_true]
    exact mapM_collect fun arg member => ih arg member (inside.part fun _ => .arg member)
  | case5 hops e expandLast between map key rest entry left found notList _ reached ih =>
    obtain ⟨agree, inside⟩ := deref_of_reached within reached
    obtain ⟨same, enough⟩ :=
      lookupMember?_of_within key (inside.part fun _ => .arg List.mem_cons_self)
    rw [Unbounded.collect, agree]
    simpa [notList, same, found] using ih (enough entry left found)
  | case6 hops e expandLast between map key missing default rest notList _ _ reached ih =>
    obtain ⟨agree, inside⟩ := deref_of_reached within reached
    have same := (lookupMember?_of_within key (inside.part fun _ => .arg List.mem_cons_self)).1
    rw [Unbounded.collect, agree]
    simpa [notList, same, missing] using ih (inside.part fun _ => .arg (by simp))
  | case7 hops e expandLast between map key missing notList _ _ reached =>
    obtain ⟨agree, inside⟩ := deref_of_reached within reached
    have same := (lookupMember?_of_within key (inside.part fun _ => .arg List.mem_cons_self)).1
    rw [Unbounded.collect, agree]
    simp [notList, same, missing]
  | case8 hops e args expandLast left _ notList reached short =>
    have agree := (deref_of_reached within reached).1
    rw [Unbounded.collect, agree]
    rcases args with _ | ⟨map, _ | ⟨key, rest⟩⟩
    · simp [notList]
    · simp [notList]
    · exact (short map key rest reached rfl HEq.rfl).elim
  | case9 hops e function args expandLast left reached notList notLookup =>
    have agree := (deref_of_reached within reached).1
    rw [Unbounded.collect, agree]
    simp [notList, notLookup]
  | case10 hops e x left notArray notObject notCall reached =>
    have agree := (deref_of_reached within reached).1
    rw [Unbounded.collect, agree]
    simp

/-- Eight hops are enough wherever no chain of references from an expression is longer: then the
strings are those of a resolution that counts nothing. A cycle that can be reached has chains of
every length, so it is excluded. -/
theorem collect_eq_strings (body : Body) (e : Expr)
    (short : ∀ names, Chain body e names → names.length ≤ maxHops) :
    Unbounded.collect body e = some (strings body e) :=
  collect_of_within short

/-- Eight locals, each of which but the last names the next one. -/
def eightLocals : Body :=
  [.block "locals" []
    [.assign "a" (.ident "b"), .assign "b" (.ident "c"), .assign "c" (.ident "d"),
      .assign "d" (.ident "e"), .assign "e" (.ident "f"), .assign "f" (.ident "g"),
      .assign "g" (.ident "h"), .assign "h" (.array [.string "roles/owner"])]]

theorem collect_eq_strings_eight :
    (∀ names, Chain eightLocals (.ident "a") names → names.length ≤ maxHops) ∧
    Unbounded.collect eightLocals (.ident "a") = some (strings eightLocals (.ident "a")) := by
  have last : Within eightLocals 0 (.array [.string "roles/owner"]) := by
    intro names chain
    cases chain with
    | nil => exact Nat.le_refl 0
    | cons reference _ _ =>
      cases reference with
      | item member inside =>
        obtain rfl := List.mem_singleton.1 member
        cases inside
  have short : Within eightLocals maxHops (.ident "a") :=
    within_ident rfl <| within_ident rfl <| within_ident rfl <| within_ident rfl <|
      within_ident rfl <| within_ident rfl <| within_ident rfl <| within_ident rfl last
  exact ⟨short, collect_eq_strings eightLocals (.ident "a") short⟩

/-- A ninth reference is not followed any more. -/
example :
    deref (.block "locals" [] [.assign "z" (.ident "a")] :: eightLocals) maxHops (.ident "z") =
      none := by
  cbv

end Blueprint.Locals
