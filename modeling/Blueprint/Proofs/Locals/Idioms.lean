import Blueprint.Proofs.Locals.Agreement

/-!
# Ways of writing the same strings

A list of strings can be named in several ways: through a local, through `for_each` and `each`,
through an index that is only known later, through a function that builds lists, or through a lookup
with a default. Here these ways are compared with the expression that they go back to, whatever that
is, also where it cannot be told. The law behind selections is that steps may be taken in two parts
(`reach_append`): the second part starts where the first one leads to, with the hops that are left
there.
-/

namespace Blueprint.Locals

open Hcl

variable {body : Body}

/-! ## Steps taken in parts -/

/-- Taking steps in two parts comes to the same as taking them at once. -/
theorem reach_append (hops : Nat) (e : Expr) (front back : List Selector) :
    reach body hops e (front ++ back) =
      (reach body hops e front).bind fun reached => reach body reached.2 reached.1 back := by
  fun_induction reach body hops e front with
  | case1 front inner hops ih => rw [reach, ih]
  | case2 front name value hops found ih => simp [reach, found, ih]
  | case3 front name value found => simp [reach, found]
  | case4 front name hops missing empty =>
    obtain rfl := List.isEmpty_iff.mp empty
    rfl
  | case5 front name hops missing more =>
    have nonempty : (front ++ back).isEmpty = false := by
      cases front with
      | nil => exact absurd rfl more
      | cons step rest => rfl
    simp [reach, missing, nonempty]
  | case6 front name more value hops found ih =>
    -- The steps of the reference itself stand before both parts.
    rw [List.append_assoc] at ih
    simpa [reach, found] using ih
  | case7 front name more hops missing =>
    have unknown (steps : List Selector) :
        reach body hops (.traversal (.ident "local") (.field name :: more)) steps = none := by
      rw [reach]
      exact missing
    simp [unknown]
  | case8 hops front root selectors notLocal => simp [reach]
  | case9 e hops notParen notIdent notLocal notTraversal => rfl
  | case10 e hops notParen notIdent notLocal notTraversal step steps entry found ih =>
    simp only [List.cons_append, reach]
    split
    · next chosen here =>
      obtain rfl : entry = chosen := Option.some.inj (found.symm.trans here)
      exact ih
    · next here => exact absurd (found.symm.trans here) (by simp)
  | case11 e hops notParen notIdent notLocal notTraversal step steps missing =>
    simp only [List.cons_append, reach]
    split
    · next here => exact absurd (here.symm.trans missing) (by simp)
    · rfl

/-- A local with what is selected from it. -/
def reference (name : String) (steps : List Selector) : Expr :=
  .traversal (.ident "local") (.field name :: steps)

/-- What is selected from a local is selected from what the local denotes. -/
theorem deref_reference (hops : Nat) (name : String) (steps : List Selector) :
    deref body hops (reference name steps) =
      (deref body hops (reference name [])).bind fun reached =>
        reach body reached.2 reached.1 (steps.takeWhile isStatic) := by
  unfold deref reference
  cases found : body.local? name with
  | none => simp [reach, found]
  | some value =>
    cases hops with
    | zero => simp [reach, found]
    | succ hops => simp [reach, found, ← reach_append]

/-! ## Where references end -/

/-- An expression from which no reference is left to follow. -/
structure Final (body : Body) (x : Expr) : Prop where
  notParen : ∀ inner, x ≠ .paren inner
  notTraversal : ∀ root selectors, x ≠ .traversal root selectors
  notLocal : ∀ name, x = .ident name → body.local? name = none

theorem final_of_reach {hops left : Nat} {e x : Expr} {steps : List Selector}
    (reached : reach body hops e steps = some (x, left)) : Final body x := by
  -- A run ends in two of the cases only; in the others it goes on or fails.
  fun_induction reach body hops e steps with
  | case1 steps inner hops ih => exact ih reached
  | case2 steps name value hops found ih => exact ih reached
  | case3 steps name value found => cases reached
  | case4 steps name hops missing empty =>
    obtain ⟨rfl, rfl⟩ : .ident name = x ∧ hops = left := by simpa using reached
    constructor
    case notParen =>
      intro inner same
      cases same
    case notTraversal =>
      intro root selectors same
      cases same
    case notLocal =>
      intro other same
      cases same
      exact missing
  | case5 steps name hops missing more => cases reached
  | case6 steps name selectors value hops found ih => exact ih reached
  | case7 steps name more hops missing => cases reached
  | case8 hops steps root selectors other => cases reached
  | case9 e hops notParen notIdent notLocal notTraversal =>
    obtain ⟨rfl, rfl⟩ : e = x ∧ hops = left := by simpa using reached
    exact ⟨notParen, notTraversal, fun name same => absurd same (notIdent name)⟩
  | case10 e hops notParen notIdent notLocal notTraversal step steps entry found ih =>
    exact ih reached
  | case11 e hops notParen notIdent notLocal notTraversal step steps missing => cases reached

/-- From where references end, a step goes to the part that it selects. -/
theorem reach_select {x : Expr} (final : Final body x) (hops : Nat) (step : Selector) :
    reach body hops x [step] = (select? x step).bind (deref body hops) := by
  cases x with
  | paren inner => exact absurd rfl (final.notParen inner)
  | traversal root selectors => exact absurd rfl (final.notTraversal root selectors)
  | ident name => simp [reach, final.notLocal name rfl, select?_ident]
  | _ =>
    simp only [reach]
    split
    · next entry here => simp [here, deref]
    · next here => simp [here]

/-! ## What is collected -/

/-- Expressions that denote the same give the same strings. -/
theorem collect_of_deref_eq {hops other : Nat} {e e' : Expr}
    (same : deref body hops e = deref body other e') :
    collect body hops e = collect body other e' := by
  rw [collect_eq, collect_eq, same]

private theorem deref_call (hops : Nat) (namespaces : List String) (function : String)
    (args : List Expr)
    (expandLast : Bool) :
    deref body hops (.call namespaces function args expandLast) =
      some (.call namespaces function args expandLast, hops) := by
  simp [deref, reach]

private theorem collect_listFunction {function : String} (list : function ∈ listFunctions)
    (hops : Nat)
    (args : List Expr) (expandLast : Bool) :
    collect body hops (.call [] function args expandLast) = args.flatMap (collect body hops) := by
  rw [collect_eq, deref_call]
  simp [list]

private theorem collect_lookup (hops : Nat) (map key default : Expr) (expandLast : Bool) :
    collect body hops (.call [] "lookup" [map, key, default] expandLast) =
      match lookupMember? body hops map key with
      | some (entry, left) => collect body left entry
      | none => collect body hops default := by
  have notList : "lookup" ∉ listFunctions := by decide
  rw [collect_eq, deref_call]
  cases found : lookupMember? body hops map key <;> simp [notList, found]

/-! ## Entries of objects -/

/-- An object has an entry for a text exactly if that is the text of one of its keys. -/
private theorem exists_member?_iff {entries : List (Key × Expr)} {key : String} :
    (∃ entry, (Expr.object entries).member? key = some entry) ↔
      ∃ entry ∈ entries, entry.1.text = key := by
  rw [← Option.isSome_iff_exists]
  simp [Expr.member?, List.find?_isSome]

private theorem exists_object_of_member? {e entry : Expr} {key : String}
    (chosen : e.member? key = some entry) : ∃ entries, e = .object entries := by
  cases e with
  | object entries => exact ⟨entries, rfl⟩
  | _ => cases chosen

/-- A lookup finds what the object that its map denotes has for its key. -/
theorem lookupMember?_eq_some_iff {hops left : Nat} {map key entry : Expr} :
    lookupMember? body hops map key = some (entry, left) ↔
      ∃ text entries, key.literalString? = some text ∧
        deref body hops map = some (.object entries, left) ∧
        (Expr.object entries).member? text = some entry := by
  simp only [lookupMember?, Option.bind_eq_bind, Option.bind_eq_some_iff]
  constructor
  · rintro ⟨text, literal, ⟨x, rest⟩, reached, part, chosen, same⟩
    obtain ⟨rfl, rfl⟩ : part = entry ∧ rest = left := by simpa using same
    obtain ⟨entries, rfl⟩ := exists_object_of_member? chosen
    exact ⟨text, entries, literal, reached, chosen⟩
  · rintro ⟨text, entries, literal, reached, chosen⟩
    exact ⟨text, literal, (.object entries, left), reached, entry, chosen, rfl⟩

/-- An index that is a string literal is a constant step to the entry of that key. -/
theorem select?_index {index : Expr} {key : String} (literal : index.literalString? = some key)
    (e : Expr) : isStatic (.index index) = true ∧ select? e (.index index) = e.member? key := by
  cases index with
  | number n => cases literal
  | _ => simp_all [isStatic, select?]

/-- Selecting the entry that a lookup in a local finds denotes what that entry does. -/
private theorem deref_index_of_lookupMember? {hops left : Nat} {name : String} {key entry : Expr}
    (found : lookupMember? body hops (reference name []) key = some (entry, left)) :
    deref body hops (reference name [.index key]) = deref body left entry := by
  obtain ⟨text, entries, literal, denoted, chosen⟩ := lookupMember?_eq_some_iff.mp found
  obtain ⟨constant, selected⟩ := select?_index literal (.object entries)
  calc deref body hops (reference name [.index key])
      = reach body left (.object entries) [.index key] := by
        rw [deref_reference, denoted]
        simp [constant]
    _ = deref body left entry := by
        rw [reach_select (final_of_reach denoted), selected, chosen]
        rfl

/-! ## Computed indices -/

theorem not_isStatic_index {index : Expr} (notNumber : ∀ n, index ≠ .number n)
    (notText : index.literalString? = none) : isStatic (.index index) = false := by
  cases index with
  | number n => exact absurd rfl (notNumber n)
  | _ => simp_all [isStatic]

/-- An index that has to be computed ends the selection before it. -/
private theorem collect_computedIndex (hops : Nat) (name : String) {index : Expr}
    (computed : isStatic (.index index) = false) :
    collect body hops (reference name [.index index]) =
      collect body hops (reference name []) := by
  refine collect_of_deref_eq ?_
  rw [deref_reference, List.takeWhile_cons_of_neg (by simp [computed])]
  exact (deref_reference hops name []).symm

/-! ## The ways compared -/

/-- The expression that stands for a part of an element of `for_each`. -/
def Each.toExpr : Each → Expr
  | .key => .traversal (.ident "each") [.field "key"]
  | .value => .traversal (.ident "each") [.field "value"]

@[simp] theorem each?_toExpr (each : Each) : each? each.toExpr = some each := by
  cases each <;> rfl

/-- Ways of writing the same strings, for all locals of a body. -/
structure Idioms (body : Body) : Prop where
  /-- Values of `for_each` are what it goes through, whatever that is. -/
  eachValue : ∀ {block : Body} {name : String} {source : Expr},
    block.attribute? "for_each" = some source →
    block.attribute? name = some Each.value.toExpr →
    attributeStrings body block name = strings body source
  /-- In a set, keys and values are the elements. -/
  eachOfSet : ∀ {block : Body} {name : String} {each : Each} {source : Expr} {expandLast : Bool},
    block.attribute? "for_each" = some (.call [] "toset" [source] expandLast) →
    block.attribute? name = some each.toExpr →
    attributeStrings body block name = strings body source
  /-- An index that has to be computed leaves the whole collection. -/
  computedIndex : ∀ {name : String} {index : Expr}, (∀ n, index ≠ .number n) →
    index.literalString? = none →
    strings body (reference name [.index index]) = strings body (reference name [])
  /-- A function that builds lists passes the strings of a single argument on. -/
  listFunction : ∀ {name function : String} {expandLast : Bool}, function ∈ listFunctions →
    strings body (.call [] function [reference name []] expandLast) =
      strings body (reference name [])
  /-- A lookup of an entry that is there is its selection. -/
  lookupFound : ∀ {name key : String} {keyLiteral default : Expr} {expandLast : Bool}
      {entries : List (Key × Expr)} {left : Nat},
    keyLiteral.literalString? = some key →
    deref body maxHops (reference name []) = some (.object entries, left) →
    (∃ entry ∈ entries, entry.1.text = key) →
    strings body (.call [] "lookup" [reference name [], keyLiteral, default] expandLast) =
      strings body (reference name [.index keyLiteral])
  /-- A lookup of an entry that is not there is its default: also where the local denotes no object,
  or nothing within the hops. -/
  lookupMissing : ∀ {name key : String} {keyLiteral default : Expr} {expandLast : Bool},
    keyLiteral.literalString? = some key →
    (∀ entries left, deref body maxHops (reference name []) = some (.object entries, left) →
      ∀ entry ∈ entries, entry.1.text ≠ key) →
    strings body (.call [] "lookup" [reference name [], keyLiteral, default] expandLast) =
      strings body default

private theorem attributeStrings_each {block : Body} {name : String} {each : Each} {source : Expr}
    (forEach : block.attribute? "for_each" = some source)
    (written : block.attribute? name = some each.toExpr) :
    attributeStrings body block name =
      match deref body maxHops source with
      | some (.object entries, left) =>
        entries.flatMap fun entry =>
          match each with
          | .key => [entry.1.text]
          | .value => collect body left entry.2
      | some _ => strings body source
      | none => [] := by
  cases denoted : deref body maxHops source with
  | none => simp [attributeStrings, written, forEach, denoted]
  | some reached =>
    obtain ⟨e, left⟩ := reached
    cases e with
    | object entries => cases each <;> simp [attributeStrings, written, forEach, denoted]
    | _ => simp [attributeStrings, written, forEach, denoted]

/-- Equivalent ways of writing a list of strings give the same strings. -/
theorem idioms_resolve_alike (body : Body) : Idioms body where
  eachValue := by
    intro block name source forEach written
    rw [attributeStrings_each forEach written]
    -- What `for_each` denotes is an object, whose values are collected either way, something else,
    -- or nothing.
    split
    · next entries left reached => rw [strings, collect_eq, reached]
    · rfl
    · next unknown => rw [strings, collect_eq, unknown]
  eachOfSet := by
    intro block name each source expandLast forEach written
    have list : "toset" ∈ listFunctions := by decide
    rw [attributeStrings_each forEach written, deref_call]
    simp [strings, collect_listFunction list]
  computedIndex := by
    intro name index notNumber notText
    exact collect_computedIndex maxHops name (not_isStatic_index notNumber notText)
  listFunction := by
    intro name function expandLast list
    simp [strings, collect_listFunction list]
  lookupFound := by
    intro name key keyLiteral default expandLast entries left literal denoted present
    obtain ⟨entry, chosen⟩ := exists_member?_iff.mpr present
    have found : lookupMember? body maxHops (reference name []) keyLiteral = some (entry, left) :=
      lookupMember?_eq_some_iff.mpr ⟨key, entries, literal, denoted, chosen⟩
    calc strings body (.call [] "lookup" [reference name [], keyLiteral, default] expandLast)
        = collect body left entry := by rw [strings, collect_lookup, found]
      _ = strings body (reference name [.index keyLiteral]) :=
        collect_of_deref_eq (deref_index_of_lookupMember? found).symm
  lookupMissing := by
    intro name key keyLiteral default expandLast literal absent
    have missing : lookupMember? body maxHops (reference name []) keyLiteral = none := by
      rw [Option.eq_none_iff_forall_not_mem]
      rintro ⟨entry, left⟩ found
      obtain ⟨text, entries, literal', denoted, chosen⟩ := lookupMember?_eq_some_iff.mp found
      obtain rfl : key = text := Option.some.inj (literal.symm.trans literal')
      obtain ⟨pair, member, same⟩ := exists_member?_iff.mp ⟨entry, chosen⟩
      exact absent entries left denoted pair member same
    rw [strings, collect_lookup, missing]
    rfl

end Blueprint.Locals
