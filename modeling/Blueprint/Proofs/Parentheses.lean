import Blueprint.Proofs.Requirements.Services
import Blueprint.Proofs.Versions.Malformed

/-!
# Parentheses around attributes

Parentheses around the expression of an attribute change nothing where it is resolved or read as a
literal. Four readers match the form of an expression as it is written, and see nothing in
parentheses: elements of `for_each`, the local map of a submodule, the requirement of a provider,
and numbers and truth values that state a version. At these places an expression of that form is
hidden by parentheses, so that the attribute counts as null (`HiddenFrom`); everywhere else
parentheses change nothing.
-/

namespace Blueprint

open Hcl

/-! ## What parentheses hide -/

/-- The attribute of a block that grants roles in which they are named. -/
def grantAttribute? (block : Block) : Option String :=
  if block.kind = "resource" ∧ (block.name?.bind RoleLevel.ofResourceType?).isSome then some "role"
  else none

/-- An element of `for_each` is assigned to the attribute of a block whose strings are read. -/
inductive ElementIn (attribute? : Block → Option String) : Place → String → Expr → Prop where
  | intro {kind name : String} {labels : List String} {e : Expr} {front before after back : Body} :
      attribute? ⟨kind, labels, []⟩ = some name → before.attribute? name = none →
      (Locals.each? e).isSome →
      ElementIn attribute? (.inside front kind labels (.here before after) back) name e

/-- An object is assigned to a local, and is the first value of that local. -/
inductive MapNamed (localMap : String) : Place → String → Expr → Prop where
  | intro {labels : List String} {entries : List (Key × Expr)} {front before after back : Body} :
      front.local? localMap = none → before.attribute? localMap = none →
      MapNamed localMap (.inside front "locals" labels (.here before after) back) localMap
        (.object entries)

/-- The places at which the requirement of a provider stands. -/
inductive AmongRequirements : Place → Prop where
  | intro {labels labels' : List String} {front front' before after back' back : Body} :
      AmongRequirements (.inside front "terraform" labels
        (.inside front' "required_providers" labels' (.here before after) back') back)

/-- An object is the requirement of a provider. -/
structure ObjectRequired (place : Place) (e : Expr) : Prop where
  among : AmongRequirements place
  form : ∃ entries, e = .object entries

/-- A number or a truth value is assigned where a body states a version. -/
structure NumberStated (place : Place) (name : String) (e : Expr) : Prop where
  reads : ∃ stated : VersionInfo.Stated, stated.Reads place name
  form : (∃ n, e = .number n) ∨ ∃ b, e = .bool b

/-- What is read from the attributes of a body. -/
inductive Reading where
  | roles (selection : Selection)
  | services (selection : Selection)
  | versions
  | providers
  /-- The strings behind the attribute itself. -/
  | strings
deriving DecidableEq, Repr

/-- A reader sees nothing in an attribute at a place if its expression stands in parentheses. -/
def HiddenFrom (reading : Reading) (place : Place) (name : String) (e : Expr) : Prop :=
  match reading with
  | .roles .root => ElementIn grantAttribute? place name e
  | .services .root => ElementIn Requirements.serviceAttribute? place name e
  | .roles (.submodule _ localMap) | .services (.submodule _ localMap) =>
    MapNamed localMap place name e
  | .versions => NumberStated place name e
  | .providers => ObjectRequired place e
  | .strings => ¬ place.Assigned name ∧ (Locals.each? e).isSome

/-- What is read is the same with the expression of an attribute in parentheses; where these hide
it, what is read is the same as for null. -/
structure Neutral {α : Type} (read : Body → α) (hidden : Prop) (name : String) (e : Expr) :
    Prop where
  seen : ¬ hidden → read [.assign name (.paren e)] = read [.assign name e]
  hidden : hidden → read [.assign name (.paren e)] = read [.assign name .null]

/-- What is made of a reading changes with parentheses only where the reading does. -/
private theorem Neutral.map {α β : Type} {read : Body → α} {hidden : Prop} {name : String}
    {e : Expr}
    (neutral : Neutral read hidden name e) (f : α → β) :
    Neutral (fun statements => f (read statements)) hidden name e where
  seen := fun visible => congrArg f (neutral.seen visible)
  hidden := fun lost => congrArg f (neutral.hidden lost)

namespace Hcl.Expr

private theorem strip_paren (e : Expr) : (paren e).strip = e.strip := by
  rw [strip]

private theorem literalString?_paren (e : Expr) : (paren e).literalString? = e.literalString? := by
  rw [literalString?]

/-- The text of an expression in parentheses is that of the expression, except for numbers and truth
values. -/
private theorem scalarText?_paren {e : Expr} (notNumber : ∀ n, e ≠ number n)
    (notBool : ∀ b, e ≠ bool b) :
    (paren e).scalarText? = e.scalarText? := by
  have own : e.scalarText? = e.literalString? := by
    cases e with
    | number n => exact absurd rfl (notNumber n)
    | bool b => exact absurd rfl (notBool b)
    | _ => rfl
  rw [own, ← literalString?_paren]
  rfl

private theorem member?_paren_of_ne_object {e : Expr} (notObject : ∀ entries, e ≠ object entries)
    (key : String) : (paren e).member? key = e.member? key := by
  cases e with
  | object entries => exact absurd rfl (notObject entries)
  | _ => rfl

end Hcl.Expr

namespace Locals

/-- In parentheses an element of `for_each` is not followed, and nothing else is behind it. -/
private theorem strings_of_each {body : Body} {e : Expr} (element : (each? e).isSome) :
    strings body (.paren e) = [] := by
  have notLocal (part : String) : deref body maxHops
      (.paren (.traversal (.ident "each") [.field part])) = none := by
    simp [deref, reach]
  unfold each? at element
  split at element
  · rw [strings, collect_eq, notLocal]
  · rw [strings, collect_eq, notLocal]
  · cases element

private theorem strings_null (body : Body) : strings body .null = [] := by
  simp [strings, collect_eq, deref, reach, Expr.literalString?]

variable {body other : Body} {name : String} {e : Expr}

/-- The strings behind an attribute do not change with parentheses around one, unless it is that one
and an element of `for_each`. -/
private theorem attributeStrings_paren (same : SameLocals body other) {place : Place} {key : String}
    (written : key = name → (each? e).isSome → ∀ front back, place = .here front back →
      (front.attribute? name).isSome) :
    attributeStrings other (place.fill [.assign name (.paren e)]) key =
      attributeStrings body (place.fill [.assign name e]) key := by
  refine attributeStrings_of_strip_eq same ?_ ?_ ?_
  · exact Place.attribute?_fill_congr (Expr.strip_paren e) place name "for_each"
  · exact Place.attribute?_fill_congr (Expr.strip_paren e) place name key
  · by_cases element : (each? e).isSome
    · -- Then the attribute is another one, so that it is the same whatever stands at the place.
      have unread (value : Expr) : (place.fill [.assign name value]).attribute? key =
          (place.fill []).attribute? key := by
        refine Place.attribute?_fill_eq value fun front back here equal => ?_
        subst here
        exact written equal element front back rfl
      rw [unread, unread]
    · have noElement : each? (.paren e) = each? e := by
        rw [Option.not_isSome_iff_eq_none.mp element]
        rfl
      exact Place.attribute?_fill_congr noElement place name key

/-- An attribute that is an element of `for_each` in parentheses has no strings, like one that is
null. -/
private theorem attributeStrings_hidden {front back : Body} (free : front.attribute? name = none)
    (element : (each? e).isSome) :
    attributeStrings other ((Place.here front back).fill [.assign name (.paren e)]) name =
      attributeStrings body ((Place.here front back).fill [.assign name .null]) name := by
  have hidden := (Place.attribute?_fill_here free (.paren e) back).1
  have null := (Place.attribute?_fill_here free .null back).1
  have written : each? (.paren e) = none := rfl
  have absent : each? .null = none := rfl
  simp only [attributeStrings, hidden, null, written, absent, strings_of_each element, strings_null]

end Locals

/-! ## Blocks -/

private theorem sameLocals_paren (place : Place) (name : String) (e : Expr) :
    Locals.SameLocals (place.fill [.assign name e]) (place.fill [.assign name (.paren e)]) :=
  fun other => Place.local?_fill_congr (Expr.strip_paren e) place name other

/-- What a block gives depends on the strings behind one attribute, which its kind and labels tell;
blocks of locals give nothing. -/
structure GivenBy {α : Type} (attribute? : Block → Option String) (given : Body → Block → List α) :
    Prop where
  notLocals : ∀ {labels : List String}, attribute? ⟨"locals", labels, []⟩ = none
  strings : ∀ {body other inner inner' : Body} {kind : String} {labels : List String},
    (∀ name, attribute? ⟨kind, labels, []⟩ = some name →
      Locals.attributeStrings other inner' name = Locals.attributeStrings body inner name) →
    given other ⟨kind, labels, inner'⟩ = given body ⟨kind, labels, inner⟩

section

variable {α : Type} {attribute? : Block → Option String} {given : Body → Block → List α}
  (givenBy : GivenBy attribute? given)
include givenBy

/-- A block gives the same in bodies with the same locals. -/
private theorem GivenBy.congr {body other : Body} (same : Locals.SameLocals body other) :
    given other = given body := by
  funext ⟨kind, labels, inner⟩
  exact givenBy.strings fun name _ => Locals.attributeStrings_of_strip_eq same rfl rfl rfl

/-- What all blocks of a body give changes with parentheses only where they hide an element of
`for_each`. -/
private theorem GivenBy.neutral (place : Place) (name : String) (e : Expr) :
    Neutral (fun statements => (place.fill statements).blocks.flatMap (given (place.fill statements)))
      (ElementIn attribute? place name e) name e where
  seen := by
    intro visible
    rw [givenBy.congr (sameLocals_paren place name e)]
    -- Blocks are resolved in the same way; only the one that holds the attribute may differ.
    cases place with
    | here front back => rw [Place.blocks_fill_here, Place.blocks_fill_here]
    | inside front kind labels inner back =>
      rw [Place.blocks_fill_inside, Place.blocks_fill_inside, List.flatMap_append,
        List.flatMap_append, List.flatMap_cons, List.flatMap_cons]
      congr 2
      refine givenBy.strings fun key read => Locals.attributeStrings_paren (.of_eq fun _ => rfl) ?_
      rintro rfl element before after rfl
      -- An element that stands first in the attribute that is read would be hidden.
      by_contra free
      exact visible (.intro read (Option.not_isSome_iff_eq_none.mp free) element)
  hidden := by
    rintro ⟨read, free, element⟩
    rename_i kind labels front before after back
    have notLocals : kind ≠ "locals" := by
      rintro rfl
      rw [givenBy.notLocals] at read
      cases read
    -- Null is not what parentheses hold, so locals are compared with those around the place.
    have same (value : Expr) : Locals.SameLocals (front ++ back)
        ((Place.inside front kind labels (.here before after) back).fill [.assign name value]) :=
      .of_eq (Place.local?_fill_inside notLocals front labels _ back _)
    rw [givenBy.congr (same _), givenBy.congr (same _), Place.blocks_fill_inside,
      Place.blocks_fill_inside, List.flatMap_append, List.flatMap_append, List.flatMap_cons,
      List.flatMap_cons]
    congr 2
    refine givenBy.strings fun key other => ?_
    obtain rfl : name = key := Option.some.inj (read.symm.trans other)
    exact Locals.attributeStrings_hidden free element

end

namespace Requirements

/-- The grant of a block that is a resource. -/
def resourceGrant (body : Body) (block : Block) : List RoleGrant :=
  if block.kind = "resource" then (grant? body block).toList else []

private theorem rolesOf_root_eq (body : Body) :
    rolesOf body .root = sortGrants (body.blocks.flatMap (resourceGrant body)) := by
  rw [rolesOf, Body.blocksOf, List.filterMap_filter, List.filterMap_eq_flatMap_toList]
  congr 2
  funext block
  by_cases isResource : block.kind = "resource" <;> simp [resourceGrant, isResource]

/-- The grant of a list of roles, if there are any. -/
def listGrant : List String → List RoleGrant
  | [] => []
  | roles => [{ level := .project, roles }]

theorem rolesOf_submodule_eq (body : Body) (name localMap : String) :
    rolesOf body (.submodule name localMap) = listGrant (moduleList body localMap name) := rfl

private theorem givenBy_resourceGrant : GivenBy grantAttribute? resourceGrant where
  notLocals := by simp [grantAttribute?]
  strings := by
    intro body other inner inner' kind labels same
    by_cases isResource : kind = "resource"
    · simp only [resourceGrant, isResource, if_true, grant?, Block.name?]
      cases level : labels.head?.bind RoleLevel.ofResourceType? with
      | none => rfl
      | some level =>
        have strings := same "role" (by simp [grantAttribute?, isResource, Block.name?, level])
        simp only [strings]
    · simp [resourceGrant, isResource]

private theorem givenBy_blockServices : GivenBy serviceAttribute? blockServices where
  notLocals := by simp [serviceAttribute?]
  strings := by
    intro body other inner inner' kind labels same
    have heading (inner : Body) :
        serviceAttribute? ⟨kind, labels, inner⟩ = serviceAttribute? ⟨kind, labels, []⟩ := rfl
    rw [blockServices_eq, blockServices_eq, heading inner, heading inner']
    cases read : serviceAttribute? ⟨kind, labels, []⟩ with
    | none => rfl
    | some name => exact same name read

private theorem moduleList_congr {body other : Body} {localMap name : String}
    (same : (other.local? localMap).map (Expr.member? name) =
      (body.local? localMap).map (Expr.member? name)) :
    moduleList other localMap name = moduleList body localMap name := by
  have member : (other.local? localMap).bind (Expr.member? name) =
      (body.local? localMap).bind (Expr.member? name) := by
    simpa [Option.bind_map] using congrArg (Option.bind · id) same
  rw [moduleList, moduleList, member]

/-- The list of a submodule in a local map changes with parentheses only around that map. -/
private theorem moduleList_neutral (place : Place) (name : String) (e : Expr)
    (localMap key : String) :
    Neutral (fun statements => moduleList (place.fill statements) localMap key)
      (MapNamed localMap place name e) name e where
  seen := by
    intro visible
    apply moduleList_congr
    by_cases isMap : ∃ entries, e = .object entries
    · -- An object is visible only if it is not what the local means.
      obtain ⟨entries, rfl⟩ := isMap
      rw [Place.local?_fill_eq (.object entries) (.paren (.object entries)) ?_]
      rintro front labels before after back rfl rfl first
      by_contra free
      exact visible (.intro first (Option.not_isSome_iff_eq_none.mp free))
    · have noMap : ∀ entries, e ≠ .object entries := fun entries same => isMap ⟨entries, same⟩
      exact Place.local?_fill_congr (Expr.member?_paren_of_ne_object noMap key) place name localMap
  hidden := by
    intro _
    have nothing : (Expr.paren e).member? key = Expr.null.member? key := rfl
    exact moduleList_congr (Place.local?_fill_congr nothing place name localMap)

private theorem rolesOf_neutral (place : Place) (name : String) (e : Expr) (selection : Selection) :
    Neutral (fun statements => rolesOf (place.fill statements) selection)
      (HiddenFrom (.roles selection) place name e) name e := by
  cases selection with
  | root =>
    simp only [rolesOf_root_eq]
    exact (givenBy_resourceGrant.neutral place name e).map sortGrants
  | submodule key localMap =>
    simp only [rolesOf_submodule_eq]
    exact (moduleList_neutral place name e localMap key).map listGrant

private theorem servicesOf_neutral (place : Place) (name : String) (e : Expr)
    (selection : Selection) :
    Neutral (fun statements => servicesOf (place.fill statements) selection)
      (HiddenFrom (.services selection) place name e) name e := by
  cases selection with
  | root => exact (givenBy_blockServices.neutral place name e).map (firstSeen [])
  | submodule key localMap => exact moduleList_neutral place name e localMap key

end Requirements

/-! ## Versions -/

namespace VersionInfo

private theorem string?_fill_congr {value value' : Expr}
    (same : value'.scalarText? = value.scalarText?)
    (place : Place) (name other : String) :
    (place.fill [.assign name value']).string? other =
      (place.fill [.assign name value]).string? other := by
  simpa [Body.string?, Option.bind_map] using
    congrArg (Option.bind · id) (Place.attribute?_fill_congr same place name other)

namespace Stated

private theorem inBlock?_fill_congr {value value' : Expr}
    (same : value'.scalarText? = value.scalarText?)
    (stated : Stated) (inner : Place) (name : String) :
    stated.inBlock? (inner.fill [.assign name value']) =
      stated.inBlock? (inner.fill [.assign name value]) := by
  cases stated with
  | tool => exact string?_fill_congr same inner name "required_version"
  | blueprint =>
    cases inner with
    | here before after => simp [Place.fill, inBlock?_blueprint_append]
    | inside front kind labels inner back =>
      have inMeta : inMeta? ⟨kind, labels, inner.fill [.assign name value']⟩ =
          inMeta? ⟨kind, labels, inner.fill [.assign name value]⟩ := by
        simp only [inMeta?, string?_fill_congr same]
        rfl
      simp only [Place.fill, inBlock?_blueprint_append, inBlock?_blueprint_block, inMeta]

/-- The first literal for a version depends on an expression only through its text. -/
private theorem first?_fill_congr {value value' : Expr}
    (same : value'.scalarText? = value.scalarText?)
    (stated : Stated) (place : Place) (name : String) :
    stated.first? (place.fill [.assign name value']) =
      stated.first? (place.fill [.assign name value]) := by
  cases place with
  | here front back => simp [Place.fill]
  | inside front kind labels inner back =>
    simp only [Place.fill, first?_append, first?_block]
    split
    · rw [inBlock?_fill_congr same]
    · rfl

end Stated

/-- The versions of a body change with parentheses only around a number or truth value that states
one. -/
private theorem ofBody?_neutral (place : Place) (name : String) (e : Expr) :
    Neutral (fun statements => ofBody? (place.fill statements)) (NumberStated place name e) name e where
  seen := by
    intro visible
    refine Stated.ofBody?_eq_iff.mpr fun stated => ?_
    by_cases form : (∃ n, e = .number n) ∨ ∃ b, e = .bool b
    · -- A number is visible only where nothing is read.
      have unread : ¬ stated.Reads place name := fun reads => visible ⟨⟨stated, reads⟩, form⟩
      rw [Stated.first?_fill_eq (.paren e) unread, Stated.first?_fill_eq e unread]
    · rw [not_or, not_exists, not_exists] at form
      rw [Stated.first?_fill_congr (Expr.scalarText?_paren form.1 form.2)]
  hidden := by
    rintro ⟨-, form⟩
    have nothing : (Expr.paren e).scalarText? = Expr.null.scalarText? := by
      rcases form with ⟨n, rfl⟩ | ⟨b, rfl⟩ <;> rfl
    refine Stated.ofBody?_eq_iff.mpr fun stated => ?_
    rw [Stated.first?_fill_congr nothing]

end VersionInfo

namespace ProviderVersion

/-- The requirements of providers that attributes state. -/
def required (attributes : List (String × Expr)) : List ProviderVersion :=
  attributes.filterMap fun (name, requirement) => ofRequirement? name requirement

private theorem ofBody_eq (body : Body) :
    ofBody body = (body.blocksOf "terraform").flatMap fun block =>
      (block.body.blocksOf "required_providers").flatMap fun block =>
        required block.body.attributes := by
  simp only [ofBody, required, List.flatMap_assoc, List.filterMap_flatMap]

private theorem required_append (front back : List (String × Expr)) :
    required (front ++ back) = required front ++ required back :=
  List.filterMap_append

section

variable {place : Place} {name : String} {value value' : Expr}

private theorem required_fill_congr
    (same : ∀ before after, place = .here before after →
      ofRequirement? name value' = ofRequirement? name value) :
    required (place.fill [.assign name value']).attributes =
      required (place.fill [.assign name value]).attributes := by
  have attributes_append (front back : Body) :
      (front ++ back).attributes = front.attributes ++ back.attributes := List.filterMap_append
  cases place with
  | here before after =>
    have single (value : Expr) : required (Body.attributes [.assign name value]) =
        (ofRequirement? name value).toList := by
      cases requirement : ofRequirement? name value <;>
        simp [required, Body.attributes, Structure.attribute?, requirement]
    simp only [Place.fill, attributes_append, required_append, single, same before after rfl]
  | inside front kind labels inner back =>
    have none (statements : Body) :
        Body.attributes (.block kind labels (inner.fill statements) :: back) = back.attributes := rfl
    simp only [Place.fill, attributes_append, none]

/-- The requirements of providers depend on an expression only where one stands, and there through
the requirement that it states. -/
private theorem ofBody_fill_congr
    (same : AmongRequirements place → ofRequirement? name value' = ofRequirement? name value) :
    ofBody (place.fill [.assign name value']) = ofBody (place.fill [.assign name value]) := by
  rw [ofBody_eq, ofBody_eq]
  -- An assignment counts only inside of `required_providers` inside of `terraform`.
  cases place with
  | here front back => simp [Place.fill]
  | inside front kind labels inner back =>
    simp only [Place.fill, Body.blocksOf_append, Body.blocksOf_block, List.flatMap_append]
    by_cases isTerraform : kind = "terraform"
    · subst isTerraform
      simp only [if_true, List.flatMap_cons, List.flatMap_nil]
      congr 3
      cases inner with
      | here before after => simp [Place.fill]
      | inside front' kind' labels' inner back' =>
        simp only [Place.fill, Body.blocksOf_append, Body.blocksOf_block, List.flatMap_append]
        by_cases isProviders : kind' = "required_providers"
        · subst isProviders
          simp only [if_true, List.flatMap_cons, List.flatMap_nil]
          congr 3
          refine required_fill_congr ?_
          rintro before after rfl
          exact same .intro
        · simp [isProviders]
    · simp [isTerraform]

end

/-- A requirement in parentheses is a version alone, if it is one at all. -/
private theorem ofRequirement?_paren_of_ne_object {e : Expr}
    (noObject : ∀ entries, e ≠ .object entries)
    (name : String) : ofRequirement? name (.paren e) = ofRequirement? name e := by
  have literal := Expr.literalString?_paren e
  cases e with
  | object entries => exact absurd rfl (noObject entries)
  | _ => simp only [ofRequirement?, literal]

/-- The requirements of providers change with parentheses only around an object that is one. -/
private theorem ofBody_neutral (place : Place) (name : String) (e : Expr) :
    Neutral (fun statements => ofBody (place.fill statements)) (ObjectRequired place e) name e where
  seen := by
    intro visible
    refine ofBody_fill_congr fun among => ?_
    exact ofRequirement?_paren_of_ne_object (fun entries form => visible ⟨among, entries, form⟩) name
  hidden := by
    rintro ⟨among, entries, rfl⟩
    exact ofBody_fill_congr fun _ => rfl

end ProviderVersion

/-! ## All readings -/

namespace Locals

/-- The strings behind an attribute change with parentheses around it only where it is an element of
`for_each`. -/
private theorem attributeStrings_neutral (place : Place) (name : String) (e : Expr) :
    Neutral (fun statements => attributeStrings (place.fill statements) (place.around statements) name)
      (¬ place.Assigned name ∧ (each? e).isSome) name e where
  seen := by
    intro visible
    obtain ⟨front, back, around, assigned⟩ := place.exists_around
    rw [assigned] at visible
    rw [around]
    refine attributeStrings_paren (sameLocals_paren place name e) fun _ element before after here => ?_
    obtain ⟨rfl, rfl⟩ := Place.here.inj here
    by_contra free
    exact visible ⟨free, element⟩
  hidden := by
    rintro ⟨free, element⟩
    obtain ⟨front, back, around, assigned⟩ := place.exists_around
    rw [assigned, Option.not_isSome_iff_eq_none] at free
    simp only [around]
    exact attributeStrings_hidden free element

end Locals

open Requirements in
/-- Parentheses around the expression of an attribute change nothing that is read from a body,
except where they hide it: there the attribute counts as null. -/
theorem parentheses_neutral (place : Place) (name : String) (e : Expr) :
    (∀ selection, Neutral (fun statements => rolesOf (place.fill statements) selection)
      (HiddenFrom (.roles selection) place name e) name e) ∧
    (∀ selection, Neutral (fun statements => servicesOf (place.fill statements) selection)
      (HiddenFrom (.services selection) place name e) name e) ∧
    Neutral (fun statements => VersionInfo.ofBody? (place.fill statements))
      (HiddenFrom .versions place name e) name e ∧
    Neutral (fun statements => ProviderVersion.ofBody (place.fill statements))
      (HiddenFrom .providers place name e) name e ∧
    Neutral (fun statements =>
        Locals.attributeStrings (place.fill statements) (place.around statements) name)
      (HiddenFrom .strings place name e) name e :=
  ⟨rolesOf_neutral place name e, servicesOf_neutral place name e,
    VersionInfo.ofBody?_neutral place name e, ProviderVersion.ofBody_neutral place name e,
    Locals.attributeStrings_neutral place name e⟩

/-- Where a resource enables each service of a list. -/
def servicePlace : Place :=
  .inside [] "resource" ["google_project_service", "apis"]
    (.here [.assign "for_each" (.array [.string "run.googleapis.com"])] []) []

def eachValue : Expr := .traversal (.ident "each") [.field "value"]

theorem parentheses_neutral_service :
    ¬ HiddenFrom (.services .root) servicePlace "service" (.string "run.googleapis.com") ∧
    Requirements.servicesOf
        (servicePlace.fill [.assign "service" (.paren (.string "run.googleapis.com"))]) .root =
      Requirements.servicesOf
        (servicePlace.fill [.assign "service" (.string "run.googleapis.com")]) .root ∧
    HiddenFrom (.services .root) servicePlace "service" eachValue ∧
    Requirements.servicesOf (servicePlace.fill [.assign "service" (.paren eachValue)]) .root =
      Requirements.servicesOf (servicePlace.fill [.assign "service" .null]) .root := by
  have visible :
      ¬ HiddenFrom (.services .root) servicePlace "service" (.string "run.googleapis.com") := by
    rintro ⟨-, -, element⟩
    cases element
  have hidden : HiddenFrom (.services .root) servicePlace "service" eachValue :=
    .intro (by decide) rfl rfl
  obtain ⟨-, text, -⟩ := parentheses_neutral servicePlace "service" (.string "run.googleapis.com")
  obtain ⟨-, element, -⟩ := parentheses_neutral servicePlace "service" eachValue
  exact ⟨visible, (text .root).seen visible, hidden, (element .root).hidden hidden⟩

/-- Where a local is assigned. -/
def localPlace : Place := .inside [] "locals" [] (.here [] []) []

/-- Where a version of the deploying tool is required. -/
def toolPlace : Place := .inside [] "terraform" [] (.here [] []) []

/-- Where a version of a provider is required. -/
def providerPlace : Place :=
  .inside [] "terraform" [] (.inside [] "required_providers" [] (.here [] []) []) []

def runRoles : Expr := .object [(.name "run", .array [.string "roles/run.admin"])]

def two : Expr := .number (.whole ⟨2, by decide⟩)

def googleVersion : Expr := .object [(.name "version", .string ">= 5.0")]

open Requirements in
/-- At each kind of place where parentheses hide an expression, what is read is lost. -/
theorem parentheses_hide :
    servicesOf (servicePlace.fill [.assign "service" eachValue]) .root = ["run.googleapis.com"] ∧
    servicesOf (servicePlace.fill [.assign "service" (.paren eachValue)]) .root = [] ∧
    rolesOf (localPlace.fill [.assign "roles" runRoles]) (.submodule "run" "roles") =
      [⟨.project, ["roles/run.admin"]⟩] ∧
    rolesOf (localPlace.fill [.assign "roles" (.paren runRoles)]) (.submodule "run" "roles") = [] ∧
    VersionInfo.ofBody? (toolPlace.fill [.assign "required_version" two]) =
      some { requiredVersion := some "2" } ∧
    VersionInfo.ofBody? (toolPlace.fill [.assign "required_version" (.paren two)]) = none ∧
    ProviderVersion.ofBody (providerPlace.fill [.assign "google" googleVersion]) =
      [⟨"hashicorp/google", ">= 5.0"⟩] ∧
    ProviderVersion.ofBody (providerPlace.fill [.assign "google" (.paren googleVersion)]) = [] := by
  have services (value : Expr) :
      servicesOf (servicePlace.fill [.assign "service" value]) .root =
        firstSeen [] (Locals.attributeStrings (servicePlace.fill [.assign "service" value])
          [.assign "for_each" (.array [.string "run.googleapis.com"]), .assign "service" value]
          "service") := by
    simp [servicesOf, servicePlace, Place.fill, Body.blocks, Structure.block?, blockServices,
      Block.name?]
  have followed : Locals.each? eachValue = some .value := rfl
  have hidden : Locals.each? (.paren eachValue) = none := rfl
  refine ⟨?_, ?_, ?_⟩
  · rw [services]
    simp [Locals.attributeStrings, Body.attribute?_assign, followed, Locals.deref, Locals.reach,
      Locals.strings, Locals.collect_array, Locals.collect_string, firstSeen]
  · rw [services]
    simp [Locals.attributeStrings, Body.attribute?_assign, hidden, followed,
      Locals.strings_of_each, firstSeen]
  · decide +kernel

end Blueprint
