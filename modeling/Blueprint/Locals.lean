import Blueprint.Hcl.Literal

/-!
# Strings behind references to local values

Lists of strings are often kept in a local value and passed through functions that build lists. The
functions here follow references to locals and constant selections without evaluating anything else,
and collect the string literals that they end at. `hops` counts how many more references may be
followed. Following a reference costs a hop, and every other step goes into a part of an expression
(`left_lt_or_size_le`), so resolution ends on every body, also where locals refer to themselves.
-/

namespace Blueprint.Locals

open Hcl

/-- The number of references that are followed one after the other. -/
def maxHops : Nat := 8

/-- Functions whose result consists of the elements of their arguments. -/
def listFunctions : List String :=
  ["concat", "sort", "flatten", "values", "toset", "distinct"]

/-- An item of a list literal. -/
def item? (index : Nat) : Expr → Option Expr
  | .array items => items[index]?
  | _ => none

/-- Whether a step of a traversal is known without evaluation. A computed index and a splat keep the
whole collection. -/
def isStatic : Selector → Bool
  | .field _ | .position _ | .index (.number _) => true
  | .index index => index.literalString?.isSome
  | .fieldSplat | .splat => false

/-- The part of a literal that a constant step selects. -/
def select? (e : Expr) : Selector → Option Expr
  | .field name => e.member? name
  | .position index => item? index e
  | .index (.number n) => n.toIndex?.bind fun index => item? index e
  | .index index => index.literalString?.bind fun key => e.member? key
  | .fieldSplat | .splat => none

/-- Nothing can be selected from a name. -/
theorem select?_ident (name : String) (step : Selector) : select? (.ident name) step = none := by
  unfold select?
  split <;> simp [Expr.member?, item?]

private theorem size_member?_lt {key : String} {e entry : Expr}
    (found : e.member? key = some entry) : sizeOf entry < sizeOf e := by
  unfold Expr.member? at found
  split at found
  · rename_i entries
    obtain ⟨pair, member, rfl⟩ := Option.map_eq_some_iff.1 found
    have inside := List.sizeOf_lt_of_mem (List.mem_of_find?_eq_some member)
    obtain ⟨k, v⟩ := pair
    simp only [Expr.object.sizeOf_spec, Prod.mk.sizeOf_spec] at *
    omega
  · simp at found

private theorem size_item?_lt {index : Nat} {e entry : Expr}
    (found : item? index e = some entry) : sizeOf entry < sizeOf e := by
  unfold item? at found
  split at found
  · have inside := List.sizeOf_lt_of_mem (List.mem_of_getElem? found)
    simp only [Expr.array.sizeOf_spec]
    omega
  · simp at found

private theorem size_select?_lt {e entry : Expr} {step : Selector}
    (found : select? e step = some entry) : sizeOf entry < sizeOf e := by
  unfold select? at found
  split at found
  · exact size_member?_lt found
  · exact size_item?_lt found
  · obtain ⟨index, _, found⟩ := Option.bind_eq_some_iff.1 found
    exact size_item?_lt found
  · obtain ⟨key, _, found⟩ := Option.bind_eq_some_iff.1 found
    exact size_member?_lt found
  · simp at found
  · simp at found

/-- The expression that `e` denotes after the given constant steps, and the hops that are left.
Parentheses are looked through, a name of a local and a traversal of `local` are followed, and any
other traversal denotes nothing. -/
def reach (body : Body) (hops : Nat) (e : Expr) (steps : List Selector) : Option (Expr × Nat) :=
  match e, hops with
  | .paren inner, hops => reach body hops inner steps
  | .ident name, hops =>
    match body.local? name, hops with
    | some value, hops + 1 => reach body hops value steps
    | some _, 0 => none
    -- A name that is no local stands for itself, and nothing can be selected from it.
    | none, hops => if steps.isEmpty then some (.ident name, hops) else none
  | .traversal (.ident "local") (.field name :: more), hops =>
    match body.local? name, hops with
    -- What follows a step that needs evaluation is given up, so that the whole collection counts.
    | some value, hops + 1 => reach body hops value (more.takeWhile isStatic ++ steps)
    | _, _ => none
  | .traversal .., _ => none
  | e, hops =>
    match steps with
    | [] => some (e, hops)
    | step :: steps =>
      match _found : select? e step with
      | some entry => reach body hops entry steps
      | none => none
termination_by (hops, sizeOf e)
decreasing_by
  all_goals first
    | exact Prod.Lex.right _ (by simp)
    | (apply Prod.Lex.left; omega)
    | (apply Prod.Lex.right; exact size_select?_lt _found)

/-- The expression that `e` denotes, and the hops that are left. -/
def deref (body : Body) (hops : Nat) (e : Expr) : Option (Expr × Nat) :=
  reach body hops e []

/-- Either a hop was spent, or what was reached is no larger than where it began. -/
theorem reach_left_lt_or_size_le {body : Body} {hops : Nat} {e : Expr} {steps : List Selector}
    {x : Expr} {left : Nat} (reached : reach body hops e steps = some (x, left)) :
    left < hops ∨ (left = hops ∧ sizeOf x ≤ sizeOf e) := by
  fun_induction reach body hops e steps
  all_goals first
    | grind [Expr.paren.sizeOf_spec]
    | (have smaller := size_select?_lt ‹select? _ _ = some _›; grind)

/-- Either a hop was spent, or what was reached is no larger than where it began. -/
private theorem left_lt_or_size_le {body : Body} {hops : Nat} {e x : Expr} {left : Nat}
    (reached : deref body hops e = some (x, left)) :
    left < hops ∨ (left = hops ∧ sizeOf x ≤ sizeOf e) :=
  reach_left_lt_or_size_le reached

/-- A part of what was reached comes before where it began in the order of resolution. -/
private theorem lex_of_deref {body : Body} {hops : Nat} {e x : Expr} {left : Nat}
    (reached : deref body hops e = some (x, left)) {part : Expr}
    (smaller : sizeOf part < sizeOf x) :
    Prod.Lex (· < ·) (· < ·) (left, sizeOf part) (hops, sizeOf e) := by
  rcases left_lt_or_size_le reached with less | ⟨rfl, size⟩
  · exact Prod.Lex.left _ _ less
  · exact Prod.Lex.right _ (by omega)

/-- The entry of a map that a call of `lookup` selects, if it can be told: the arguments are the map
and a string literal as key. -/
def lookupMember? (body : Body) (hops : Nat) (map key : Expr) : Option (Expr × Nat) := do
  let key ← key.literalString?
  let (map, left) ← deref body hops map
  let entry ← map.member? key
  return (entry, left)

/-- An entry found in a map comes before the map in the order of resolution. -/
private theorem lex_of_lookupMember? {body : Body} {hops : Nat} {map key entry : Expr} {left : Nat}
    (found : lookupMember? body hops map key = some (entry, left)) :
    Prod.Lex (· < ·) (· < ·) (left, sizeOf entry) (hops, sizeOf map) := by
  simp only [lookupMember?, Option.bind_eq_bind, Option.bind_eq_some_iff] at found
  obtain ⟨text, _, ⟨x, rest⟩, reached, part, selected, same⟩ := found
  obtain ⟨rfl, rfl⟩ : part = entry ∧ rest = left := by simpa using same
  exact lex_of_deref reached (size_member?_lt selected)

/-- The string literals reached from an expression, in source order: those of the items of a list,
of the values of an object and of the arguments of a function that builds lists. A call of `lookup`
stands for the entry, or else for its default. -/
def collect (body : Body) (hops : Nat) (e : Expr) : List String :=
  match _reached : deref body hops e with
  | none => []
  | some (.array items, left) =>
    items.attach.flatMap fun ⟨item, _member⟩ => collect body left item
  | some (.object entries, left) =>
    entries.attach.flatMap fun ⟨entry, _member⟩ => collect body left entry.2
  | some (.call [] function args _, left) =>
    if function ∈ listFunctions then
      args.attach.flatMap fun ⟨arg, _member⟩ => collect body left arg
    else if function = "lookup" then
      match args with
      | map :: key :: rest =>
        match _found : lookupMember? body left map key with
        | some (entry, left) => collect body left entry
        | none =>
          match rest with
          | default :: _ => collect body left default
          | [] => []
      | _ => []
    else []
  | some (e, _) => e.literalString?.toList
termination_by (hops, sizeOf e)
decreasing_by
  · apply lex_of_deref _reached
    have := List.sizeOf_lt_of_mem _member
    simp only [Expr.array.sizeOf_spec]
    omega
  · apply lex_of_deref _reached
    have := List.sizeOf_lt_of_mem _member
    obtain ⟨k, v⟩ := entry
    simp only [Expr.object.sizeOf_spec, Prod.mk.sizeOf_spec] at *
    omega
  · apply lex_of_deref _reached
    have := List.sizeOf_lt_of_mem _member
    simp only [Expr.call.sizeOf_spec]
    omega
  · rcases left_lt_or_size_le _reached with less | ⟨rfl, size⟩
    · cases lex_of_lookupMember? _found with
      | left _ _ spent => exact Prod.Lex.left _ _ (by omega)
      | right _ _ => exact Prod.Lex.left _ _ less
    · cases lex_of_lookupMember? _found with
      | left _ _ spent => exact Prod.Lex.left _ _ spent
      | right _ smaller =>
        apply Prod.Lex.right
        simp only [Expr.call.sizeOf_spec, List.cons.sizeOf_spec] at size
        omega
  · apply lex_of_deref _reached
    simp only [Expr.call.sizeOf_spec, List.cons.sizeOf_spec]
    omega

/-- What is collected, said without the proofs that resolution ends. -/
theorem collect_eq (body : Body) (hops : Nat) (e : Expr) :
    collect body hops e =
      match deref body hops e with
      | none => []
      | some (.array items, left) => items.flatMap (collect body left)
      | some (.object entries, left) => entries.flatMap fun entry => collect body left entry.2
      | some (.call [] function args _, left) =>
        if function ∈ listFunctions then args.flatMap (collect body left)
        else if function = "lookup" then
          match args with
          | map :: key :: rest =>
            match lookupMember? body left map key with
            | some (entry, left) => collect body left entry
            | none =>
              match rest with
              | default :: _ => collect body left default
              | [] => []
          | _ => []
        else []
      | some (e, _) => e.literalString?.toList := by
  rw [collect]
  -- By what was reached. Only the proofs that were handed on with the parts are left out.
  split
  · simp [*]
  · simp [*]
  · rename_i reached
    simp only [reached]
    exact (List.flatMap_subtype fun _ _ => rfl).trans (by rw [List.unattach_attach])
  · rename_i function args expandLast left reached
    simp only [reached]
    split
    · simp
    · split
      · split
        · rename_i map key rest _
          split
          · simp [*]
          · rename_i missing
            cases rest <;> simp [missing]
        · rename_i short
          rcases args with _ | ⟨map, _ | ⟨key, rest⟩⟩
          · rfl
          · rfl
          · exact (short map key rest reached rfl HEq.rfl).elim
      · rfl
  · simp [*]

theorem collect_string (body : Body) (hops : Nat) (text : String) :
    collect body hops (.string text) = [text] := by
  simp [collect_eq, deref, reach, Expr.literalString?]

theorem collect_array (body : Body) (hops : Nat) (items : List Expr) :
    collect body hops (.array items) = items.flatMap (collect body hops) := by
  rw [collect_eq]
  simp [deref, reach]

def strings (body : Body) (e : Expr) : List String :=
  collect body maxHops e

/-- Which part of an element of `for_each` is meant. -/
inductive Each where
  | key
  | value
deriving DecidableEq, Repr

/-- The part of an element that `each.key` and `each.value` mean. -/
def each? : Expr → Option Each
  | .traversal (.ident "each") [.field "key"] => some .key
  | .traversal (.ident "each") [.field "value"] => some .value
  | _ => none

/-- The string literals behind an attribute of a block. `each.key` and `each.value` go through the
`for_each` of the block: over an object they mean its keys and values, over anything else its
elements. -/
def attributeStrings (body block : Body) (name : String) : List String :=
  match block.attribute? name with
  | none => []
  | some e =>
    match each? e with
    | none => strings body e
    | some each =>
      match block.attribute? "for_each" with
      | none => []
      | some source =>
        match deref body maxHops source with
        | some (.object entries, left) =>
          entries.flatMap fun entry =>
            match each with
            | .key => [entry.1.text]
            | .value => collect body left entry.2
        | some _ => strings body source
        | none => []

end Blueprint.Locals
