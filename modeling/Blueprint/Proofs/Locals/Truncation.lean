import Blueprint.Proofs.Expressions
import Blueprint.Proofs.Locals.Unbounded
import Mathlib.Data.List.Flatten

/-!
# Resolution with fewer hops

What is collected with fewer hops is a part of what is collected with more, in the same order, and
of what is collected without counting them. This holds where running out of hops never decides which
argument of a `lookup` counts (`Decided`): a map that lies too deep is taken for one without the
key, and then the default is collected, which no other resolution gives. Behind it is that more hops
change nothing about what was reached with fewer, but leave more.
-/

namespace Blueprint.Locals

open Hcl

variable {body : Body}

/-- What is collected from an expression after a number of references, of which `maxHops` are
followed at most. -/
def collectAt (body : Body) (depth : Nat) (e : Expr) : List String :=
  if depth ≤ maxHops then collect body (maxHops - depth) e else []

/-! ## More hops -/

/-- More hops reach the same, and as many more are left. -/
private theorem reach_add {hops left : Nat} {e x : Expr} {steps : List Selector}
    (reached : reach body hops e steps = some (x, left)) (more : Nat) :
    reach body (hops + more) e steps = some (x, left + more) := by
  -- The run with more hops takes the same cases, since none of them was left for want of a hop.
  fun_induction reach body hops e steps with
  | case1 steps inner hops ih =>
    rw [reach]
    exact ih reached
  | case2 steps name value hops found ih =>
    rw [Nat.succ_add, reach]
    · exact ih reached
    · exact found
  | case3 steps name value found => cases reached
  | case4 steps name hops missing empty =>
    obtain ⟨rfl, rfl⟩ : .ident name = x ∧ hops = left := by simpa using reached
    simp [reach, missing, empty]
  | case5 steps name hops missing more => cases reached
  | case6 steps name selectors value hops found ih =>
    rw [Nat.succ_add, reach]
    · exact ih reached
    · exact found
  | case7 steps name more hops missing => cases reached
  | case8 hops steps root selectors other => cases reached
  | case9 e hops notParen notIdent notLocal notTraversal =>
    obtain ⟨rfl, rfl⟩ : e = x ∧ hops = left := by simpa using reached
    simp [reach]
  | case10 e hops notParen notIdent notLocal notTraversal step steps entry found ih =>
    have onward := ih reached
    simp only [reach]
    split
    · next chosen here =>
      obtain rfl : entry = chosen := Option.some.inj (found.symm.trans here)
      exact onward
    · next here => exact absurd (found.symm.trans here) (by simp)
  | case11 e hops notParen notIdent notLocal notTraversal step steps missing => cases reached

private theorem deref_add {hops left : Nat} {e x : Expr}
    (reached : deref body hops e = some (x, left))
    (more : Nat) : deref body (hops + more) e = some (x, left + more) :=
  reach_add reached more

private theorem lookupMember?_add {hops left : Nat} {map key entry : Expr}
    (found : lookupMember? body hops map key = some (entry, left)) (more : Nat) :
    lookupMember? body (hops + more) map key = some (entry, left + more) := by
  unfold lookupMember? at found ⊢
  obtain ⟨text, literal, found⟩ := Option.bind_eq_some_iff.mp found
  obtain ⟨⟨x, rest⟩, reached, found⟩ := Option.bind_eq_some_iff.mp found
  obtain ⟨part, chosen, same⟩ := Option.bind_eq_some_iff.mp found
  obtain ⟨rfl, rfl⟩ : part = entry ∧ rest = left := by simpa using same
  simp [literal, deref_add reached more, chosen]

/-! ## Any number of hops -/

/-- What is reached with some hops is reached without counting them. -/
private theorem unbounded_of_reach {hops left : Nat} {e x : Expr} {steps : List Selector}
    (reached : reach body hops e steps = some (x, left)) :
    (Unbounded.deref body e).bind (fun e? => Unbounded.walk body e? steps) = some (some x) := by
  -- Each case of the bounded resolution is one of the unbounded one, or it gives nothing.
  fun_induction reach body hops e steps with
  | case1 steps inner hops ih =>
    rw [Unbounded.deref]
    exact ih reached
  | case2 steps name value hops found ih =>
    simp only [Unbounded.deref, found]
    exact ih reached
  | case3 steps name value found => cases reached
  | case4 steps name hops missing empty =>
    obtain rfl := List.isEmpty_iff.1 empty
    obtain ⟨rfl, rfl⟩ : .ident name = x ∧ hops = left := by simpa using reached
    simp [Unbounded.deref, Unbounded.walk, missing]
  | case5 steps name hops missing more => cases reached
  | case6 steps name selectors value hops found ih =>
    rw [← ih reached]
    cases denoted : Unbounded.deref body value with
    | none => simp [Unbounded.deref, found, denoted]
    | some e? => simp [Unbounded.deref, found, denoted, Unbounded.walk_append]
  | case7 steps name more hops missing => cases reached
  | case8 hops steps root selectors other => cases reached
  | case9 e hops notParen notIdent notLocal notTraversal =>
    obtain ⟨rfl, rfl⟩ : e = x ∧ hops = left := by simpa using reached
    simp [Unbounded.deref, Unbounded.walk]
  | case10 e hops notParen notIdent notLocal notTraversal step steps entry found ih =>
    simpa [Unbounded.deref, Unbounded.walk, found] using ih reached
  | case11 e hops notParen notIdent notLocal notTraversal step steps missing => cases reached

private theorem unbounded_of_deref {hops left : Nat} {e x : Expr}
    (reached : deref body hops e = some (x, left)) : Unbounded.deref body e = some (some x) := by
  have walked := unbounded_of_reach reached
  cases denoted : Unbounded.deref body e with
  | none => simp [denoted] at walked
  | some e? =>
    cases e? with
    | none => simp [denoted, Unbounded.walk] at walked
    | some e' => simpa [denoted, Unbounded.walk] using walked

private theorem unbounded_of_lookupMember? {hops left : Nat} {map key entry : Expr}
    (found : lookupMember? body hops map key = some (entry, left)) :
    Unbounded.lookupMember? body map key = some (some entry) := by
  unfold lookupMember? at found
  obtain ⟨text, literal, found⟩ := Option.bind_eq_some_iff.mp found
  obtain ⟨⟨x, rest⟩, reached, found⟩ := Option.bind_eq_some_iff.mp found
  obtain ⟨part, chosen, same⟩ := Option.bind_eq_some_iff.mp found
  obtain ⟨rfl, rfl⟩ : part = entry ∧ rest = left := by simpa using same
  simp [Unbounded.lookupMember?, literal, unbounded_of_deref reached, chosen]

/-! ## Calls of `lookup` that are met -/

/-- Collecting from an expression comes to what an expression denotes, with the hops that are
left. -/
inductive Meets (body : Body) : Nat → Expr → Nat → Expr → Prop where
  | here {hops left : Nat} {e x : Expr} :
      deref body hops e = some (x, left) → Meets body hops e left x
  | item {hops left rest : Nat} {e item x : Expr} {items : List Expr} :
      deref body hops e = some (.array items, left) → item ∈ items → Meets body left item rest x →
      Meets body hops e rest x
  | entry {hops left rest : Nat} {e x : Expr} {entries : List (Key × Expr)} {entry : Key × Expr} :
      deref body hops e = some (.object entries, left) → entry ∈ entries →
      Meets body left entry.2 rest x → Meets body hops e rest x
  | arg {hops left rest : Nat} {e arg x : Expr} {function : String} {args : List Expr}
      {expandLast : Bool} :
      deref body hops e = some (.call [] function args expandLast, left) →
      function ∈ listFunctions → arg ∈ args → Meets body left arg rest x → Meets body hops e rest x
  | found {hops left onward rest : Nat} {e map key entry x : Expr} {more : List Expr}
      {expandLast : Bool} :
      deref body hops e = some (.call [] "lookup" (map :: key :: more) expandLast, left) →
      lookupMember? body left map key = some (entry, onward) → Meets body onward entry rest x →
      Meets body hops e rest x
  | default {hops left rest : Nat} {e map key default x : Expr} {more : List Expr}
      {expandLast : Bool} :
      deref body hops e =
        some (.call [] "lookup" (map :: key :: default :: more) expandLast, left) →
      lookupMember? body left map key = none → Meets body left default rest x →
      Meets body hops e rest x

/-- No call of `lookup` that is met falls back to its default because its map lies too deep: where
the entry is not found, no number of hops finds it. -/
def Decided (body : Body) (hops : Nat) (e : Expr) : Prop :=
  ∀ left map key default more expandLast,
    Meets body hops e left (.call [] "lookup" (map :: key :: default :: more) expandLast) →
    lookupMember? body left map key = none →
    ∀ entry, Unbounded.lookupMember? body map key ≠ some (some entry)

section Decided

variable {hops left onward : Nat} {e map key last : Expr} {more : List Expr} {expandLast : Bool}

private theorem decided_of_deref_eq_none (unknown : deref body hops e = none) :
    Decided body hops e := by
  intro _ _ _ _ _ _ met
  cases met <;> simp_all

private theorem decided_string (body : Body) (hops : Nat) (text : String) :
    Decided body hops (.string text) := by
  intro _ _ _ _ _ _ met
  have reached : deref body hops (.string text) = some (.string text, hops) := by simp [deref, reach]
  cases met <;> simp_all

/-- Of a list, the items are met. -/
private theorem decided_array_iff {items : List Expr}
    (reached : deref body hops e = some (.array items, left)) :
    Decided body hops e ↔ ∀ item ∈ items, Decided body left item := by
  constructor
  · intro decided item member _ _ _ _ _ _ met
    exact decided _ _ _ _ _ _ (.item reached member met)
  · intro each _ _ _ _ _ _ met
    cases met with
    | item reached' member inner =>
      obtain ⟨rfl, rfl⟩ : items = _ ∧ left = _ := by simpa [reached] using reached'
      exact each _ member _ _ _ _ _ _ inner
    | here reached' | entry reached' | arg reached' | found reached' | default reached' =>
      simp [reached] at reached'

/-- Of an object, the values are met. -/
private theorem decided_object_iff {entries : List (Key × Expr)}
    (reached : deref body hops e = some (.object entries, left)) :
    Decided body hops e ↔ ∀ entry ∈ entries, Decided body left entry.2 := by
  constructor
  · intro decided entry member _ _ _ _ _ _ met
    exact decided _ _ _ _ _ _ (.entry reached member met)
  · intro each _ _ _ _ _ _ met
    cases met with
    | entry reached' member inner =>
      obtain ⟨rfl, rfl⟩ : entries = _ ∧ left = _ := by simpa [reached] using reached'
      exact each _ member _ _ _ _ _ _ inner
    | here reached' | item reached' | arg reached' | found reached' | default reached' =>
      simp [reached] at reached'

/-- Of a call of a function that builds lists, the arguments are met. -/
private theorem decided_list_iff {function : String} {args : List Expr}
    (reached : deref body hops e = some (.call [] function args expandLast, left))
    (list : function ∈ listFunctions) :
    Decided body hops e ↔ ∀ arg ∈ args, Decided body left arg := by
  have notLookup : function ≠ "lookup" := by
    rintro rfl
    exact absurd list (by decide)
  constructor
  · intro decided arg member _ _ _ _ _ _ met
    exact decided _ _ _ _ _ _ (.arg reached list member met)
  · intro each _ _ _ _ _ _ met
    cases met with
    | arg reached' list' member inner =>
      obtain ⟨⟨rfl, rfl, rfl⟩, rfl⟩ : (function = _ ∧ args = _ ∧ expandLast = _) ∧ left = _ := by
        simpa [reached] using reached'
      exact each _ member _ _ _ _ _ _ inner
    | here reached' | item reached' | entry reached' | found reached' | default reached' =>
      simp [reached, notLookup] at reached'

/-- Of a lookup that finds an entry, the entry is met. -/
private theorem decided_found_iff {entry : Expr}
    (reached : deref body hops e = some (.call [] "lookup" (map :: key :: more) expandLast, left))
    (found : lookupMember? body left map key = some (entry, onward)) :
    Decided body hops e ↔ Decided body onward entry := by
  constructor
  · intro decided _ _ _ _ _ _ met
    exact decided _ _ _ _ _ _ (.found reached found met)
  · -- The lookup itself is met too, but it is not one that misses.
    intro decided _ _ _ _ _ _ met
    cases met with
    | here reached' =>
      intro missing
      obtain ⟨⟨⟨rfl, rfl, -⟩, -⟩, rfl⟩ :
          ((map = _ ∧ key = _ ∧ more = _) ∧ expandLast = _) ∧ left = _ := by
        simpa [reached] using reached'
      exact absurd (found.symm.trans missing) (by simp)
    | found reached' found' inner =>
      obtain ⟨⟨⟨rfl, rfl, -⟩, -⟩, rfl⟩ :
          ((map = _ ∧ key = _ ∧ more = _) ∧ expandLast = _) ∧ left = _ := by
        simpa [reached] using reached'
      obtain ⟨rfl, rfl⟩ : entry = _ ∧ onward = _ := by simpa [found] using found'
      exact decided _ _ _ _ _ _ inner
    | default reached' missing inner =>
      obtain ⟨⟨⟨rfl, rfl, -⟩, -⟩, rfl⟩ :
          ((map = _ ∧ key = _ ∧ more = _) ∧ expandLast = _) ∧ left = _ := by
        simpa [reached] using reached'
      exact absurd (found.symm.trans missing) (by simp)
    | arg reached' list =>
      obtain ⟨⟨rfl, -, -⟩, -⟩ : ("lookup" = _ ∧ _ :: _ :: _ = _ ∧ expandLast = _) ∧ left = _ := by
        simpa [reached] using reached'
      exact absurd list (by decide)
    | item reached' | entry reached' => simp [reached] at reached'

private theorem Decided.fallback (decided : Decided body hops e)
    (reached : deref body hops e =
      some (.call [] "lookup" (map :: key :: last :: more) expandLast, left))
    (missing : lookupMember? body left map key = none) : Decided body left last :=
  fun _ _ _ _ _ _ met => decided _ _ _ _ _ _ (.default reached missing met)

/-- A lookup that falls back to its default does so with more hops too. -/
private theorem Decided.missing_add (decided : Decided body hops e)
    (reached : deref body hops e =
      some (.call [] "lookup" (map :: key :: last :: more) expandLast, left))
    (missing : lookupMember? body left map key = none) (further : Nat) :
    lookupMember? body (left + further) map key = none := by
  cases found : lookupMember? body (left + further) map key with
  | none => rfl
  | some pair =>
    have absent := decided _ _ _ _ _ _ (.here reached) missing pair.1
    exact absurd (unbounded_of_lookupMember? found) absent

end Decided

/-- With fewer hops a part of what more hops give is collected. -/
private theorem collect_sublist_add {hops : Nat} {e : Expr} (decided : Decided body hops e)
    (more : Nat) :
    (collect body hops e).Sublist (collect body (hops + more) e) := by
  -- Both come to the same expression, so that only its parts remain to be compared.
  induction hops, e using collect.induct body with rw [collect_eq body, collect_eq body]
  | case1 hops e reached =>
    rw [reached]
    exact List.nil_sublist _
  | case2 hops e items left reached ih =>
    rw [reached, deref_add reached]
    exact List.Sublist.flatMap_right items fun item member =>
      ih item member ((decided_array_iff reached).mp decided item member)
  | case3 hops e entries left reached ih =>
    rw [reached, deref_add reached]
    exact List.Sublist.flatMap_right entries fun entry member =>
      ih entry member ((decided_object_iff reached).mp decided entry member)
  | case4 hops e function args expandLast left reached list ih =>
    simp only [reached, deref_add reached, list, if_true]
    exact List.Sublist.flatMap_right args fun arg member =>
      ih arg member ((decided_list_iff reached list).mp decided arg member)
  | case5 hops e expandLast between map key rest entry left found notList _ reached ih =>
    have onward := ih ((decided_found_iff reached found).mp decided)
    simpa [reached, deref_add reached, notList, found, lookupMember?_add found] using onward
  | case6 hops e expandLast between map key missing default rest notList _ _ reached ih =>
    have onward := ih (decided.fallback reached missing)
    have still := decided.missing_add reached missing more
    simpa [reached, deref_add reached, notList, missing, still] using onward
  | case7 hops e expandLast between map key missing notList _ _ reached =>
    simp [reached, notList, missing]
  | case8 hops e args expandLast left _ notList reached short =>
    rcases args with _ | ⟨map, _ | ⟨key, rest⟩⟩
    · simp [reached, notList]
    · simp [reached, notList]
    · exact (short map key rest reached rfl HEq.rfl).elim
  | case9 hops e function args expandLast left reached notList notLookup =>
    simp [reached, notList, notLookup]
  | case10 hops e x left notArray notObject notCall reached =>
    simp [reached, deref_add reached]

/-- Collecting the parts of something one after the other gives a part of what a traversal gives. -/
private theorem flatMap_sublist_of_mapM {α : Type} {items : List α}
    {part : α → Option (List String)}
    {given : α → List String} {all : List String}
    (each : ∀ item ∈ items, ∀ strings, part item = some strings → (given item).Sublist strings)
    (traversed : (do return (← items.mapM part).flatten) = some all) :
    (items.flatMap given).Sublist all := by
  induction items generalizing all with
  | nil => simp
  | cons item rest ih =>
    simp only [List.mapM_cons, Option.bind_eq_bind, Option.pure_def, Option.bind_eq_some_iff,
      Option.some.injEq] at traversed
    obtain ⟨lists, ⟨first, here, others, behind, rfl⟩, rfl⟩ := traversed
    rw [List.flatMap_cons, List.flatten_cons]
    apply List.Sublist.append (each item List.mem_cons_self first here)
    apply ih fun other member => each other (List.mem_cons_of_mem item member)
    simp [behind]

/-- What is collected is a part of what a resolution without a bound collects, where that ends. -/
private theorem collect_sublist_unbounded {hops : Nat} {e : Expr} {all : List String}
    (decided : Decided body hops e) (ends : Unbounded.collect body e = some all) :
    (collect body hops e).Sublist all := by
  -- As above, but what the other side comes to is known from `ends`. A lookup may fall back to its
  -- default only if the other side finds no entry either, which is what is decided.
  induction hops, e using collect.induct body generalizing all with rw [collect_eq body]
  | case1 hops e reached =>
    rw [reached]
    exact List.nil_sublist _
  | case2 hops e items left reached ih =>
    rw [Unbounded.collect, unbounded_of_deref reached] at ends
    rw [reached]
    exact flatMap_sublist_of_mapM
      (fun item member _ ends =>
        ih item member ((decided_array_iff reached).mp decided item member) ends) ends
  | case3 hops e entries left reached ih =>
    rw [Unbounded.collect, unbounded_of_deref reached] at ends
    rw [reached]
    exact flatMap_sublist_of_mapM
      (fun entry member _ ends =>
        ih entry member ((decided_object_iff reached).mp decided entry member) ends) ends
  | case4 hops e function args expandLast left reached list ih =>
    rw [Unbounded.collect, unbounded_of_deref reached] at ends
    simp only [Option.bind_eq_bind, Option.bind_some, list, if_true] at ends
    simp only [reached, list, if_true]
    exact flatMap_sublist_of_mapM
      (fun arg member _ ends =>
        ih arg member ((decided_list_iff reached list).mp decided arg member) ends) ends
  | case5 hops e expandLast between map key rest entry left found notList _ reached ih =>
    rw [Unbounded.collect, unbounded_of_deref reached] at ends
    have onward : Unbounded.collect body entry = some all := by
      simpa [notList, unbounded_of_lookupMember? found] using ends
    simpa [reached, notList, found] using ih ((decided_found_iff reached found).mp decided) onward
  | case6 hops e expandLast between map key missing default rest notList _ _ reached ih =>
    rw [Unbounded.collect, unbounded_of_deref reached] at ends
    have onward : Unbounded.collect body default = some all := by
      have absent := decided _ _ _ _ _ _ (.here reached) missing
      cases looked : Unbounded.lookupMember? body map key with
      | none => simp [notList, looked] at ends
      | some entry? =>
        cases entry? with
        | none => simpa [notList, looked] using ends
        | some entry => exact absurd looked (absent entry)
    simpa [reached, notList, missing] using ih (decided.fallback reached missing) onward
  | case7 hops e expandLast between map key missing notList _ _ reached =>
    simp [reached, notList, missing]
  | case8 hops e args expandLast left _ notList reached short =>
    rcases args with _ | ⟨map, _ | ⟨key, rest⟩⟩
    · simp [reached, notList]
    · simp [reached, notList]
    · exact (short map key rest reached rfl HEq.rfl).elim
  | case9 hops e function args expandLast left reached notList notLookup =>
    simp [reached, notList, notLookup]
  | case10 hops e x left notArray notObject notCall reached =>
    rw [Unbounded.collect, unbounded_of_deref reached] at ends
    have same : x.literalString?.toList = all := by simpa using ends
    simp [reached, same]

/-- What is collected after more references is a part of what is collected after fewer, in the same
order, and of what a resolution without a bound collects, wherever that ends: where running out of
hops decides no lookup, it only loses strings. -/
theorem collectAt_sublist_of_deeper {body : Body} {e : Expr} {depth deeper : Nat}
    (ordered : depth ≤ deeper) (decided : deeper ≤ maxHops → Decided body (maxHops - deeper) e) :
    (collectAt body deeper e).Sublist (collectAt body depth e) ∧
      ∀ all, Unbounded.collect body e = some all → (collectAt body deeper e).Sublist all := by
  unfold collectAt
  by_cases within : deeper ≤ maxHops
  · have hops : maxHops - depth = (maxHops - deeper) + (deeper - depth) := by omega
    rw [if_pos within, if_pos (Nat.le_trans ordered within), hops]
    exact ⟨collect_sublist_add (decided within) _,
      fun all ends => collect_sublist_unbounded (decided within) ends⟩
  · rw [if_neg within]
    exact ⟨List.nil_sublist _, fun _ _ => List.nil_sublist _⟩

/-- A map behind eight references, and one behind nine. -/
def mapsBehind : Body :=
  [.block "locals" []
    [.assign "m0" (.object [(.name "k", .string "roles/entry")]), .assign "m1" (.ident "m0"),
      .assign "m2" (.ident "m1"), .assign "m3" (.ident "m2"), .assign "m4" (.ident "m3"),
      .assign "m5" (.ident "m4"), .assign "m6" (.ident "m5"), .assign "m7" (.ident "m6"),
      .assign "m8" (.ident "m7")]]

/-- The names of these maps, by how many references they lie behind. -/
private def mapNames : List String :=
  ["m0", "m1", "m2", "m3", "m4", "m5", "m6", "m7", "m8"]

private theorem deref_ident {body : Body} {name : String} {value : Expr}
    (stated : body.local? name = some value) (hops : Nat) :
    deref body (hops + 1) (.ident name) = deref body hops value := by
  simp [deref, reach, stated]

private theorem deref_ident_zero {body : Body} {name : String} {value : Expr}
    (stated : body.local? name = some value) : deref body 0 (.ident name) = none := by
  simp [deref, reach, stated]

/-- A map is reached from where there are more hops than references in front of it. -/
private theorem deref_mapsBehind {n : Nat} {name : String} (named : mapNames[n]? = some name)
    (hops : Nat) :
    deref mapsBehind hops (.ident name) =
      if n < hops then some (.object [(.name "k", .string "roles/entry")], hops - (n + 1))
      else none := by
  have links : ∀ n ∈ List.range 8,
      mapNames[n + 1]?.bind mapsBehind.local? = mapNames[n]?.map .ident := by decide +kernel
  -- Each reference takes a hop, down to the map itself, which takes the last one.
  induction n generalizing name hops with
  | zero =>
    obtain rfl : "m0" = name := by simpa [mapNames] using named
    have stated : mapsBehind.local? "m0" = some (.object [(.name "k", .string "roles/entry")]) := by
      decide +kernel
    cases hops with
    | zero => simp [deref_ident_zero stated]
    | succ hops =>
      rw [deref_ident stated]
      simp [deref, reach]
  | succ n ih =>
    have inside : n < 8 := by
      have bound := (List.getElem?_eq_some_iff.mp named).1
      exact Nat.lt_of_succ_lt_succ bound
    obtain ⟨next, named'⟩ : ∃ next, mapNames[n]? = some next :=
      ⟨_, List.getElem?_eq_getElem (Nat.lt_succ_of_lt inside)⟩
    have stated : mapsBehind.local? name = some (.ident next) := by
      simpa [named, named'] using links n (List.mem_range.mpr inside)
    cases hops with
    | zero => simp [deref_ident_zero stated]
    | succ hops => simp [deref_ident stated, ih named']

/-- The entry of a map under `k`, or else a default. -/
def entryOf (map : String) : Expr :=
  .call [] "lookup" [.ident map, .string "k", .string "roles/default"] false

private theorem lookupMember?_mapsBehind {n : Nat} {name : String}
    (named : mapNames[n]? = some name) (hops : Nat) :
    lookupMember? mapsBehind hops (.ident name) (.string "k") =
      if n < hops then some (.string "roles/entry", hops - (n + 1)) else none := by
  simp only [lookupMember?, Expr.literalString?, deref_mapsBehind named]
  split <;> rfl

/-- A call stands for itself. -/
private theorem deref_entryOf (hops : Nat) (map : String) :
    deref mapsBehind hops (entryOf map) = some (entryOf map, hops) := by
  simp [entryOf, deref, reach]

/-- What is collected for the entry of a map, by what looking it up gives. -/
private theorem collect_entryOf (hops : Nat) (map : String) :
    collect mapsBehind hops (entryOf map) =
      match lookupMember? mapsBehind hops (.ident map) (.string "k") with
      | some (entry, left) => collect mapsBehind left entry
      | none => ["roles/default"] := by
  rw [collect_eq, deref_entryOf]
  cases found : lookupMember? mapsBehind hops (.ident map) (.string "k") <;>
    simp [entryOf, listFunctions, found, collect_string]

/-- A list of a lookup that finds its entry and of a reference that cannot be followed far
enough. -/
theorem collectAt_sublist_deep_list :
    (collectAt mapsBehind 6 (.array [entryOf "m1", .ident "m8"])).Sublist
      (collectAt mapsBehind 0 (.array [entryOf "m1", .ident "m8"])) := by
  have decided : Decided mapsBehind (maxHops - 6) (.array [entryOf "m1", .ident "m8"]) := by
    have list : deref mapsBehind 2 (.array [entryOf "m1", .ident "m8"]) =
        some (.array [entryOf "m1", .ident "m8"], 2) := by simp [deref, reach]
    have call : deref mapsBehind 2 (entryOf "m1") = some (entryOf "m1", 2) := deref_entryOf 2 "m1"
    have found : lookupMember? mapsBehind 2 (.ident "m1") (.string "k") =
        some (.string "roles/entry", 0) := lookupMember?_mapsBehind (n := 1) rfl 2
    have tooDeep : deref mapsBehind 2 (.ident "m8") = none := deref_mapsBehind (n := 8) rfl 2
    refine (decided_array_iff list).mpr fun item member => ?_
    obtain rfl | rfl : item = entryOf "m1" ∨ item = .ident "m8" := by simpa using member
    · exact (decided_found_iff call found).mpr (decided_string mapsBehind 0 "roles/entry")
    · exact decided_of_deref_eq_none tooDeep
  exact (collectAt_sublist_of_deeper (Nat.zero_le 6) fun _ => decided).1

/-- The entry of a map that lies too deep gives way to the default, which neither more hops nor a
resolution without a bound give. -/
theorem strings_introduces_default :
    strings mapsBehind (entryOf "m8") = ["roles/default"] ∧
      Unbounded.collect mapsBehind (entryOf "m8") = some ["roles/entry"] ∧
      ¬(collectAt mapsBehind 1 (entryOf "m7")).Sublist (collectAt mapsBehind 0 (entryOf "m7")) := by
  have tooDeep : lookupMember? mapsBehind 8 (.ident "m8") (.string "k") = none :=
    lookupMember?_mapsBehind (n := 8) rfl 8
  have cut : lookupMember? mapsBehind 7 (.ident "m7") (.string "k") = none :=
    lookupMember?_mapsBehind (n := 7) rfl 7
  have whole : lookupMember? mapsBehind 8 (.ident "m7") (.string "k") =
      some (.string "roles/entry", 0) := lookupMember?_mapsBehind (n := 7) rfl 8
  have unbounded : lookupMember? mapsBehind 9 (.ident "m8") (.string "k") =
      some (.string "roles/entry", 0) := lookupMember?_mapsBehind (n := 8) rfl 9
  refine ⟨?_, ?_, ?_⟩
  · rw [strings, maxHops, collect_entryOf, tooDeep]
  · have entry : Unbounded.lookupMember? mapsBehind (.ident "m8") (.string "k") =
        some (some (.string "roles/entry")) := unbounded_of_lookupMember? unbounded
    have text : Unbounded.collect mapsBehind (.string "roles/entry") = some ["roles/entry"] := by
      rw [Unbounded.collect]
      simp [Unbounded.deref, Expr.literalString?]
    rw [Unbounded.collect]
    simp [entryOf, Unbounded.deref, listFunctions, entry, text]
  · simp only [collectAt, maxHops, Nat.reduceLeDiff, Nat.reduceSub, if_true, collect_entryOf, cut,
      whole, collect_string]
    decide

end Blueprint.Locals
