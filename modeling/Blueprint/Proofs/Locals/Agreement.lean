import Blueprint.Locals
import Mathlib.Data.List.Basic

/-!
# Bodies with the same locals

Resolution reads a body only by looking up locals, and it looks through parentheses. So bodies in
which every name of a local means the same, but for parentheses around it, resolve every expression
alike, in parentheses or not. Only what says that an attribute stands for an element of `for_each`
has to be written in the same way.
-/

namespace Blueprint.Locals

open Hcl

variable {body other : Body}

/-- Every name of a local means the same in two bodies, but for parentheses around it. -/
def SameLocals (body other : Body) : Prop :=
  ∀ name, (other.local? name).map Expr.strip = (body.local? name).map Expr.strip

theorem SameLocals.of_eq (same : ∀ name, other.local? name = body.local? name) :
    SameLocals body other :=
  fun name => congrArg (Option.map Expr.strip) (same name)

private theorem SameLocals.none (same : SameLocals body other) {name : String}
    (missing : body.local? name = none) : other.local? name = none := by
  simpa [missing] using same name

private theorem SameLocals.some (same : SameLocals body other) {name : String} {value : Expr}
    (found : body.local? name = some value) :
    ∃ value', other.local? name = some value' ∧ value'.strip = value.strip := by
  simpa [found] using same name

/-! ## Parentheses around an expression -/

@[simp] theorem reach_strip (hops : Nat) (e : Expr) (steps : List Selector) :
    reach body hops e.strip steps = reach body hops e steps := by
  fun_induction Expr.strip e with
  | case1 inner ih => rw [ih, reach]
  | case2 e notParen => rfl

private theorem reach_of_strip_eq {e e' : Expr} (same : e'.strip = e.strip) (hops : Nat)
    (steps : List Selector) : reach body hops e' steps = reach body hops e steps := by
  rw [← reach_strip, same, reach_strip]

private theorem deref_of_strip_eq {e e' : Expr} (same : e'.strip = e.strip) (hops : Nat) :
    deref body hops e' = deref body hops e :=
  reach_of_strip_eq same hops []

private theorem collect_of_strip_eq {e e' : Expr} (same : e'.strip = e.strip) (hops : Nat) :
    collect body hops e' = collect body hops e := by
  rw [collect_eq, collect_eq body hops e, deref_of_strip_eq same]

/-! ## Bodies -/

private theorem reach_congr (same : SameLocals body other) (hops : Nat) (e : Expr)
    (steps : List Selector) : reach other hops e steps = reach body hops e steps := by
  -- Where a local is followed the other body has one of the same value without its parentheses, and
  -- what is reached from there does not tell the two apart.
  fun_induction reach body hops e steps with
  | case1 steps inner hops ih => rw [reach, ih]
  | case2 steps name value hops found ih =>
    obtain ⟨value', found', stripped⟩ := same.some found
    simp [reach, found', reach_of_strip_eq stripped, ih]
  | case3 steps name value found =>
    obtain ⟨value', found', -⟩ := same.some found
    simp [reach, found']
  | case4 steps name hops missing empty => simp [reach, same.none missing, empty]
  | case5 steps name hops missing more => simp [reach, same.none missing, more]
  | case6 steps name more value hops found ih =>
    obtain ⟨value', found', stripped⟩ := same.some found
    simp [reach, found', reach_of_strip_eq stripped, ih]
  | case7 steps name more hops missing =>
    cases found : body.local? name with
    | none => simp [reach, same.none found]
    | some value =>
      obtain ⟨value', found', -⟩ := same.some found
      cases hops with
      | zero => simp [reach, found']
      | succ hops => exact (missing value hops found rfl).elim
  | case8 hops steps root selectors notLocal => simp [reach]
  | case9 e hops notParen notIdent notLocal notTraversal => simp [reach]
  | case10 e hops notParen notIdent notLocal notTraversal step steps entry found ih =>
    simp only [reach]
    split
    · rename_i chosen here
      obtain rfl : entry = chosen := Option.some.inj (found.symm.trans here)
      exact ih
    · rename_i here
      exact absurd (found.symm.trans here) (by simp)
  | case11 e hops notParen notIdent notLocal notTraversal step steps missing =>
    simp only [reach]
    split
    · rename_i here
      exact absurd (here.symm.trans missing) (by simp)
    · rfl

private theorem deref_congr (same : SameLocals body other) (hops : Nat) (e : Expr) :
    deref other hops e = deref body hops e :=
  reach_congr same hops e []

private theorem lookupMember?_congr (same : SameLocals body other) (hops : Nat)
    (map key : Expr) : lookupMember? other hops map key = lookupMember? body hops map key := by
  simp only [lookupMember?, deref_congr same]

private theorem collect_congr (same : SameLocals body other) (hops : Nat) (e : Expr) :
    collect other hops e = collect body hops e := by
  -- Both reach the same expression, so that only what its parts give remains to be compared.
  induction hops, e using collect.induct body with
    rw [collect_eq other, collect_eq body, deref_congr same]
  | case1 hops e reached => rw [reached]
  | case2 hops e items left reached ih =>
    rw [reached]
    exact List.flatMap_congr ih
  | case3 hops e entries left reached ih =>
    rw [reached]
    exact List.flatMap_congr ih
  | case4 hops e function args expandLast left reached list ih =>
    simp only [reached, list, if_true]
    exact List.flatMap_congr ih
  | case5 hops e expandLast between map key rest entry left found notList _ reached ih =>
    simpa [reached, notList, lookupMember?_congr same, found] using ih
  | case6 hops e expandLast between map key missing default rest notList _ _ reached ih =>
    simpa [reached, notList, lookupMember?_congr same, missing] using ih
  | case7 hops e expandLast between map key missing notList _ _ reached =>
    simp [reached, notList, lookupMember?_congr same, missing]
  | case8 hops e args expandLast left _ notList reached short =>
    rcases args with _ | ⟨map, _ | ⟨key, rest⟩⟩
    · simp [reached, notList]
    · simp [reached, notList]
    · exact (short map key rest reached rfl HEq.rfl).elim
  | case9 hops e function args expandLast left reached notList notLookup =>
    simp [reached, notList, notLookup]
  | case10 hops e x left notArray notObject notCall reached =>
    simp [reached]

/-- The strings behind an attribute are the same with parentheses around it and around what
`for_each` goes through, as long as it is, or is not, an element of that in the same way. -/
theorem attributeStrings_of_strip_eq (same : SameLocals body other) {block block' : Body}
    {name : String}
    (forEach : (block'.attribute? "for_each").map Expr.strip =
      (block.attribute? "for_each").map Expr.strip)
    (assigned : (block'.attribute? name).map Expr.strip = (block.attribute? name).map Expr.strip)
    (element : (block'.attribute? name).map each? = (block.attribute? name).map each?) :
    attributeStrings other block' name = attributeStrings body block name := by
  have collected (hops : Nat) : collect other hops = collect body hops :=
    funext (collect_congr same hops)
  -- Three things are read of the block: whether the attribute is there, whether it is an element, and
  -- then what `for_each` goes through.
  unfold attributeStrings strings
  cases found : block.attribute? name with
  | none =>
    have found' : block'.attribute? name = none := by simpa [found] using assigned
    rw [found']
  | some e =>
    obtain ⟨e', found', stripped⟩ : ∃ e', block'.attribute? name = some e' ∧ e'.strip = e.strip := by
      simpa [found] using assigned
    have each : each? e' = each? e := by simpa [found, found'] using element
    simp only [found', each, collected]
    cases each? e with
    | none => exact collect_of_strip_eq stripped maxHops
    | some each =>
      cases source : block.attribute? "for_each" with
      | none =>
        have source' : block'.attribute? "for_each" = none := by simpa [source] using forEach
        rw [source']
      | some values =>
        obtain ⟨values', source', stripped⟩ :
            ∃ values', block'.attribute? "for_each" = some values' ∧
              values'.strip = values.strip := by
          simpa [source] using forEach
        simp only [source', deref_congr same, deref_of_strip_eq stripped,
          collect_of_strip_eq stripped]

/-- The strings behind an attribute are the same wherever its block stands. -/
theorem attributeStrings_congr (same : ∀ name, other.local? name = body.local? name) (block : Body)
    (name : String) : attributeStrings other block name = attributeStrings body block name :=
  attributeStrings_of_strip_eq (.of_eq same) rfl rfl rfl

end Blueprint.Locals
