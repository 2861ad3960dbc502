import Blueprint.Proofs.Locals.Agreement
import Blueprint.Proofs.Requirements.Roles
import Mathlib.Data.List.Nodup

/-!
# Requirements and the order of declarations

Where no local is defined in two blocks, its value does not depend on where the blocks stand, and so
nothing that is resolved does. What is left of the order of declarations is the order in which
grants and services are listed, which sorting undoes for grants with different keys.
-/

namespace Blueprint.Requirements

open Hcl

/-- No local is defined in two blocks. -/
def LocalsOnce (body : Body) : Prop :=
  (body.blocksOf "locals").Pairwise fun a b =>
    ∀ name, a.body.attribute? name = none ∨ b.body.attribute? name = none

private theorem blocksOf_perm {body shuffled : Body} (perm : body.Perm shuffled) (kind : String) :
    (body.blocksOf kind).Perm (shuffled.blocksOf kind) :=
  (perm.filterMap Structure.block?).filter _

/-- The first result of a search is the only one where at most one item has a result. -/
private theorem findSome?_eq_some_iff_of_once {α β : Type} {f : α → Option β} {items : List α}
    {result : β}
    (once : items.Pairwise fun a b => f a = none ∨ f b = none) :
    items.findSome? f = some result ↔ ∃ item ∈ items, f item = some result := by
  induction items with
  | nil => simp
  | cons first rest ih =>
    obtain ⟨apart, later⟩ := List.pairwise_cons.mp once
    cases found : f first with
    | none => simp [found, ih later]
    | some value =>
      -- No other item has a result, so it does not matter that this one came first.
      have alone : ∀ item ∈ rest, f item = none := fun item member =>
        (apart item member).resolve_left (by simp [found])
      simp only [List.findSome?_cons, found, Option.some.injEq, List.mem_cons, exists_eq_or_imp]
      constructor
      · exact .inl
      · rintro (same | ⟨item, member, other⟩)
        · exact same
        · rw [alone item member] at other
          cases other

private theorem local?_eq_some_iff {body : Body} (once : LocalsOnce body) {name : String}
    {value : Expr} :
    body.local? name = some value ↔
      ∃ block ∈ body.blocksOf "locals", block.body.attribute? name = some value :=
  findSome?_eq_some_iff_of_once (once.imp fun apart => apart name)

private theorem LocalsOnce.perm {body shuffled : Body} (once : LocalsOnce body)
    (perm : body.Perm shuffled) : LocalsOnce shuffled :=
  ((blocksOf_perm perm "locals").pairwise_iff fun apart name => (apart name).symm).mp once

/-- Locals mean the same wherever their blocks stand. -/
private theorem local?_of_perm {body shuffled : Body} (once : LocalsOnce body)
    (perm : body.Perm shuffled)
    (name : String) : shuffled.local? name = body.local? name := by
  ext value
  rw [local?_eq_some_iff once, local?_eq_some_iff (once.perm perm)]
  simp only [(blocksOf_perm perm "locals").mem_iff]

private theorem mem_firstSeen {s : String} {seen strings : List String} :
    s ∈ firstSeen seen strings ↔ s ∈ strings ∧ s ∉ seen := by
  induction strings generalizing seen with
  | nil => simp [firstSeen]
  | cons first rest ih =>
    simp only [firstSeen]
    split <;> grind

theorem nodup_firstSeen (seen strings : List String) : (firstSeen seen strings).Nodup := by
  induction strings generalizing seen with
  | nil => exact .nil
  | cons first rest ih =>
    simp only [firstSeen]
    split
    · exact ih seen
    · exact List.nodup_cons.mpr ⟨by simp [mem_firstSeen], ih _⟩

section

variable {body shuffled : Body} (once : LocalsOnce body) (perm : body.Perm shuffled)
include once perm

private theorem grantsOf_of_perm : (grantsOf shuffled).Perm (grantsOf body) := by
  have same : grant? shuffled = grant? body := by
    funext block
    simp only [grant?, Locals.attributeStrings_congr (local?_of_perm once perm)]
  rw [grantsOf, same]
  exact ((blocksOf_perm perm "resource").filterMap _).symm

private theorem mem_servicesOf_of_perm (s : String) :
    s ∈ servicesOf shuffled .root ↔ s ∈ servicesOf body .root := by
  have same : blockServices shuffled = blockServices body := by
    funext block
    simp only [blockServices, Locals.attributeStrings_congr (local?_of_perm once perm)]
  have blocks : body.blocks.Perm shuffled.blocks := perm.filterMap _
  simp only [servicesOf, mem_firstSeen, same, List.mem_flatMap, blocks.mem_iff]

private theorem moduleList_of_perm (localMap name : String) :
    moduleList shuffled localMap name = moduleList body localMap name := by
  rw [moduleList, moduleList, local?_of_perm once perm]

end

/-- Grants with different keys are sorted into the same list whatever their order was. -/
private theorem sortGrants_of_perm {grants shuffled : List RoleGrant} (perm : shuffled.Perm grants)
    (distinct : (grants.map sortKey).Nodup) : sortGrants shuffled = sortGrants grants := by
  -- Sorted permutations can differ only where grants tie, and different grants do not.
  have sorted : (sortGrants shuffled).Perm (sortGrants grants) :=
    (perm_sortGrants shuffled).trans (perm.trans (perm_sortGrants grants).symm)
  refine sorted.eq_of_pairwise (fun a b inA inB below above => ?_) (pairwise_sortGrants shuffled)
    (pairwise_sortGrants grants)
  exact List.inj_on_of_nodup_map distinct (perm.mem_iff.mp ((perm_sortGrants _).mem_iff.mp inA))
    ((perm_sortGrants _).mem_iff.mp inB) (le_antisymm below above)

/-- Requirements do not depend on the order of declarations, except that grants with the same key
and services are listed in source order. -/
theorem requirements_of_perm {body shuffled : Body} (once : LocalsOnce body)
    (perm : body.Perm shuffled) :
    (rolesOf shuffled .root).Perm (rolesOf body .root) ∧
    (((rolesOf body .root).map sortKey).Nodup → rolesOf shuffled .root = rolesOf body .root) ∧
    (∀ s, s ∈ servicesOf shuffled .root ↔ s ∈ servicesOf body .root) ∧
    (servicesOf shuffled .root).Nodup ∧ (servicesOf body .root).Nodup ∧
    ∀ name localMap,
      rolesOf shuffled (.submodule name localMap) = rolesOf body (.submodule name localMap) ∧
      servicesOf shuffled (.submodule name localMap) =
        servicesOf body (.submodule name localMap) := by
  have grants := grantsOf_of_perm once perm
  refine ⟨?_, fun distinct => ?_, mem_servicesOf_of_perm once perm, nodup_firstSeen _ _,
    nodup_firstSeen _ _, fun name localMap => ?_⟩
  · exact (perm_sortGrants _).trans (grants.trans (perm_sortGrants _).symm)
  -- Keys are distinct after sorting exactly when they were before.
  · have keys : ((grantsOf body).map sortKey).Nodup :=
      ((perm_sortGrants (grantsOf body)).map sortKey).nodup_iff.mp distinct
    exact sortGrants_of_perm grants keys
  · simp only [rolesOf, servicesOf, moduleList_of_perm once perm, and_self]

/-- Two blocks of locals, and two resources that use one each. -/
def ownerBody : Body :=
  [.block "locals" [] [.assign "owner" (.string "roles/owner")],
    .block "locals" [] [.assign "viewer" (.string "roles/viewer")],
    .block "resource" ["google_project_iam_member", "v"]
      [.assign "role" (.traversal (.ident "local") [.field "viewer"])],
    .block "resource" ["google_project_iam_member", "o"]
      [.assign "role" (.traversal (.ident "local") [.field "owner"])]]

private theorem grantsOf_ownerBody : grantsOf ownerBody =
    [{ level := .project, roles := ["roles/viewer"] },
      { level := .project, roles := ["roles/owner"] }] := by
  have granted {name role : String} (resource : String)
      (known : ownerBody.local? name = some (.string role)) :
      grant? ownerBody ⟨"resource", ["google_project_iam_member", resource],
        [.assign "role" (.traversal (.ident "local") [.field name])]⟩ =
        some { level := .project, roles := [role] } := by
    have reached : Locals.deref ownerBody Locals.maxHops
        (.traversal (.ident "local") [.field name]) = some (.string role, 7) := by
      simp [Locals.deref, Locals.reach, Locals.maxHops, known]
    have strings : Locals.strings ownerBody (.traversal (.ident "local") [.field name]) =
        [role] := by
      rw [Locals.strings, Locals.collect_eq, reached]
      rfl
    exact grant?_eq_some_iff.mpr ⟨rfl, fun s => by rw [← strings]; rfl, by simp, by simp⟩
  exact (List.filterMap_cons_some (granted "v" rfl)).trans
    (congrArg _ (List.filterMap_cons_some (granted "o" rfl)))

theorem requirements_of_perm_owner :
    LocalsOnce ownerBody ∧ ownerBody.Perm ownerBody.reverse ∧
    ((rolesOf ownerBody .root).map sortKey).Nodup ∧
    rolesOf ownerBody.reverse .root = rolesOf ownerBody .root := by
  have once : LocalsOnce ownerBody := by
    refine List.pairwise_pair.mpr fun name => ?_
    by_cases first : name = "owner"
    · subst first
      exact .inr rfl
    · have missing : List.lookup name [("owner", Expr.string "roles/owner")] = none := by
        simp [first]
      exact .inl missing
  have perm : ownerBody.Perm ownerBody.reverse := ownerBody.reverse_perm.symm
  have distinct : ((rolesOf ownerBody .root).map sortKey).Nodup := by
    refine ((perm_sortGrants (grantsOf ownerBody)).map sortKey).nodup_iff.mpr ?_
    rw [grantsOf_ownerBody]
    decide
  exact ⟨once, perm, distinct, (requirements_of_perm once perm).2.1 distinct⟩

end Blueprint.Requirements
