import Blueprint.Extract.Requirements
import Mathlib.Data.List.Forall2
import Mathlib.Data.Prod.Lex
import Mathlib.Data.String.Basic
import Mathlib.Order.WithBot

/-!
# Roles of a blueprint

The grants of a blueprint are those of its resources, each in one canonical form: the strings that
its roles resolve to, strictly ascending. They are sorted by a key, and since the order of keys is
linear and sorting is stable, the result is determined by the grants in source order.
-/

namespace Blueprint.Requirements

open Hcl

private theorem mem_dropRepeats {s : String} {strings : List String} :
    s ∈ dropRepeats strings ↔ s ∈ strings := by
  fun_induction dropRepeats strings with
  | case1 => rfl
  | case2 t => rfl
  | case3 t rest ih => simp [ih]
  | case4 t u rest different ih => simp [ih]

/-- In an ascending list equal strings stand side by side, so that none of them is left twice. -/
private theorem pairwise_dropRepeats {strings : List String} (sorted : strings.Pairwise (· ≤ ·)) :
    (dropRepeats strings).Pairwise (· < ·) := by
  fun_induction dropRepeats strings with
  | case1 => exact .nil
  | case2 s => simp
  | case3 s rest ih => exact ih (List.pairwise_cons.mp sorted).2
  | case4 s t rest different ih =>
    obtain ⟨least, tail⟩ := List.pairwise_cons.mp sorted
    refine List.pairwise_cons.mpr ⟨fun x member => ?_, ih tail⟩
    have below : s < t := lt_of_le_of_ne (least t (by simp)) different
    rcases List.mem_cons.mp (mem_dropRepeats.mp member) with rfl | later
    · exact below
    · exact lt_of_lt_of_le below ((List.pairwise_cons.mp tail).1 x later)

private theorem mem_ascending {s : String} {strings : List String} :
    s ∈ ascending strings ↔ s ∈ strings := by
  simp [ascending, mem_dropRepeats]

private theorem pairwise_ascending (strings : List String) :
    (ascending strings).Pairwise (· < ·) := by
  apply pairwise_dropRepeats
  have sorted := @List.pairwise_mergeSort String (fun a b => a ≤ b)
    (fun a b c ab bc => by simpa using le_trans (of_decide_eq_true ab) (of_decide_eq_true bc))
    (fun a b => by simpa using le_total a b) strings
  simpa using sorted

/-- Two strictly ascending lists of the same strings are the same list. -/
private theorem eq_ascending {roles strings : List String} (ordered : roles.Pairwise (· < ·))
    (same : ∀ s, s ∈ roles ↔ s ∈ strings) : roles = ascending strings := by
  have distinct {list : List String} (ordered : list.Pairwise (· < ·)) : list.Nodup :=
    ordered.imp fun below => below.ne
  -- Lists without repetitions that have the same members are permutations of each other.
  have perm : roles.Perm (ascending strings) :=
    (List.perm_ext_iff_of_nodup (distinct ordered) (distinct (pairwise_ascending strings))).mpr
      fun s => (same s).trans mem_ascending.symm
  exact perm.eq_of_pairwise (fun a b _ _ below above => absurd above below.asymm) ordered
    (pairwise_ascending strings)

/-- What a block grants: its type is that of a level, and it names at least one role. -/
structure Grants (body : Body) (block : Block) (g : RoleGrant) : Prop where
  type : block.name? = some g.level.resourceType
  strings : ∀ s, s ∈ g.roles ↔ s ∈ Locals.attributeStrings body block.body "role"
  ascending : g.roles.Pairwise (· < ·)
  nonempty : g.roles ≠ []

/-- Whether a block grants roles that can be told. -/
def GrantsRoles (body : Body) (block : Block) : Prop :=
  (∃ level ∈ RoleLevel.all, block.name? = some level.resourceType) ∧
    Locals.attributeStrings body block.body "role" ≠ []

instance (body : Body) : DecidablePred (GrantsRoles body) := fun _ =>
  inferInstanceAs (Decidable (_ ∧ _))

private theorem ofResourceType?_eq_some_iff {text : String} {level : RoleLevel} :
    RoleLevel.ofResourceType? text = some level ↔ text = level.resourceType := by
  constructor
  · intro found
    have hit : level.resourceType = text := by simpa using List.find?_some found
    exact hit.symm
  · rintro rfl
    cases level <;> rfl

private theorem ascending_eq_nil_iff {strings : List String} :
    ascending strings = [] ↔ strings = [] := by
  simp only [List.eq_nil_iff_forall_not_mem, mem_ascending]

theorem grant?_eq_some_iff {body : Body} {block : Block} {g : RoleGrant} :
    grant? body block = some g ↔ Grants body block g := by
  simp only [grant?, Option.bind_eq_bind, Option.bind_eq_some_iff, ofResourceType?_eq_some_iff,
    List.isEmpty_iff, ascending_eq_nil_iff, Option.ite_none_left_eq_some, Option.some.injEq]
  constructor
  · rintro ⟨level, ⟨text, chosen, rfl⟩, some, rfl⟩
    exact ⟨chosen, fun s => mem_ascending, pairwise_ascending _,
      fun empty => some (ascending_eq_nil_iff.mp empty)⟩
  · intro grants
    have roles := eq_ascending grants.ascending grants.strings
    refine ⟨g.level, ⟨_, grants.type, rfl⟩, fun none => ?_, by rw [← roles]⟩
    exact grants.nonempty (roles.trans (ascending_eq_nil_iff.mpr none))

private theorem isSome_grant?_iff {body : Body} {block : Block} :
    (grant? body block).isSome = true ↔ GrantsRoles body block := by
  simp only [Option.isSome_iff_exists, grant?_eq_some_iff]
  constructor
  · rintro ⟨g, grants⟩
    refine ⟨⟨g.level, by cases g.level <;> simp [RoleLevel.all], grants.type⟩, fun none => ?_⟩
    exact grants.nonempty (List.eq_nil_iff_forall_not_mem.mpr fun s member => by
      simpa [none] using (grants.strings s).mp member)
  · rintro ⟨⟨level, _, type⟩, some⟩
    exact ⟨{ level, roles := ascending (Locals.attributeStrings body block.body "role") }, type,
      fun s => mem_ascending, pairwise_ascending _, fun none => some (ascending_eq_nil_iff.mp none)⟩

/-- The grants of resources, in source order. -/
def grantsOf (body : Body) : List RoleGrant :=
  (body.blocksOf "resource").filterMap (grant? body)

private theorem grantsOf_forall₂ (body : Body) :
    List.Forall₂ (Grants body)
      ((body.blocksOf "resource").filter fun block => GrantsRoles body block) (grantsOf body) := by
  unfold grantsOf
  induction body.blocksOf "resource" with
  | nil => exact .nil
  | cons block rest ih =>
    cases found : grant? body block with
    | none =>
      have skipped : ¬ GrantsRoles body block := by simp [← isSome_grant?_iff, found]
      simpa [found, skipped] using ih
    | some g =>
      have kept : GrantsRoles body block := by simp [← isSome_grant?_iff, found]
      simpa [found, kept] using ⟨grant?_eq_some_iff.mp found, ih⟩

/-- What grants are sorted by: the name of the level, the number of roles and the first role. -/
def sortKey (g : RoleGrant) : String ×ₗ Nat ×ₗ WithBot String :=
  toLex (g.level.name, toLex (g.roles.length, g.roles.head?))

private theorem grantLE_iff {a b : RoleGrant} : grantLE a b = true ↔ sortKey a ≤ sortKey b := by
  simp only [grantLE, sortKey, Prod.Lex.toLex_le_toLex]
  -- A component decides only where all components before it are equal.
  rcases lt_trichotomy a.level.name b.level.name with less | same | greater
  · simp [compare_lt_iff_lt.mpr less, less]
  · rcases lt_trichotomy a.roles.length b.roles.length with fewer | equal | more
    · simp [same, compare_lt_iff_lt.mpr fewer, fewer]
    · simp only [same, equal, compare_eq_iff_eq.mpr rfl, lt_irrefl, true_and, false_or]
      cases a.roles.head? with
      | none => exact iff_of_true rfl bot_le
      | some x =>
        cases b.roles.head? with
        | none => exact iff_of_false Bool.false_ne_true (WithBot.not_coe_le_bot x)
        | some y => exact decide_eq_true_iff.trans WithBot.coe_le_coe.symm
    · simp [same, compare_gt_iff_gt.mpr more, more.not_gt, more.ne']
  · simp [compare_gt_iff_gt.mpr greater, greater.not_gt, greater.ne']

private theorem grantLE_trans (a b c : RoleGrant) (ab : grantLE a b = true)
    (bc : grantLE b c = true) : grantLE a c = true :=
  grantLE_iff.mpr ((grantLE_iff.mp ab).trans (grantLE_iff.mp bc))

private theorem grantLE_total (a b : RoleGrant) : (grantLE a b || grantLE b a) = true := by
  simpa [grantLE_iff] using le_total (sortKey a) (sortKey b)

theorem perm_sortGrants (grants : List RoleGrant) : (sortGrants grants).Perm grants :=
  List.mergeSort_perm grants grantLE

theorem pairwise_sortGrants (grants : List RoleGrant) :
    (sortGrants grants).Pairwise fun a b => sortKey a ≤ sortKey b :=
  (List.pairwise_mergeSort grantLE_trans grantLE_total grants).imp grantLE_iff.mp

private theorem sortGrants_of_pairwise {grants : List RoleGrant}
    (sorted : grants.Pairwise fun a b => sortKey a ≤ sortKey b) : sortGrants grants = grants :=
  List.mergeSort_of_pairwise (sorted.imp grantLE_iff.mpr)

/-- Grants with the same key are not moved past each other. -/
private theorem filter_sortGrants (grants : List RoleGrant)
    (key : String ×ₗ Nat ×ₗ WithBot String) :
    (sortGrants grants).filter (fun g => sortKey g = key) =
      grants.filter fun g => sortKey g = key := by
  have tied : (grants.filter fun g => sortKey g = key).Pairwise fun a b => grantLE a b = true := by
    refine List.pairwise_of_forall_mem_list fun a inA b inB => grantLE_iff.mpr ?_
    simp only [List.mem_filter, decide_eq_true_eq] at inA inB
    exact (inA.2.trans inB.2.symm).le
  -- Sorting keeps every ascending sublist, so the tied grants are still there in their order.
  have kept : (grants.filter fun g => sortKey g = key).Sublist (sortGrants grants) :=
    List.sublist_mergeSort grantLE_trans grantLE_total tied List.filter_sublist
  have inside := kept.filter fun g => sortKey g = key
  simp only [List.filter_filter, Bool.and_self] at inside
  refine (inside.eq_of_length ?_).symm
  exact ((perm_sortGrants grants).filter _).length_eq.symm

/-- The roles of a blueprint are the grants of its resources, each in canonical form: in order of
their keys, with grants of the same key in source order. Sorting them again changes nothing. -/
theorem rolesOf_root_canonical (body : Body) :
    ∃ grants, List.Forall₂ (Grants body)
        ((body.blocksOf "resource").filter fun block => GrantsRoles body block) grants ∧
      (rolesOf body .root).Perm grants ∧
      [] ∉ (rolesOf body .root).map (·.roles) ∧
      (rolesOf body .root).Pairwise (fun a b => sortKey a ≤ sortKey b) ∧
      (∀ key, (rolesOf body .root).filter (fun g => sortKey g = key) =
        grants.filter fun g => sortKey g = key) ∧
      sortGrants (rolesOf body .root) = rolesOf body .root := by
  have perm : (rolesOf body .root).Perm (grantsOf body) := perm_sortGrants _
  have sorted : (rolesOf body .root).Pairwise fun a b => sortKey a ≤ sortKey b :=
    pairwise_sortGrants _
  refine ⟨grantsOf body, grantsOf_forall₂ body, perm, ?_, sorted, fun key => ?_,
    sortGrants_of_pairwise sorted⟩
  · intro empty
    obtain ⟨g, member, none⟩ := List.mem_map.mp empty
    obtain ⟨block, _, found⟩ := List.mem_filterMap.mp (perm.mem_iff.mp member)
    exact (grant?_eq_some_iff.mp found).nonempty none
  · exact filter_sortGrants (grantsOf body) key

end Blueprint.Requirements
