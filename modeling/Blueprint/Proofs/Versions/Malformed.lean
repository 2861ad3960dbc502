import Blueprint.Proofs.Places
import Blueprint.Proofs.Versions.Suffix

/-!
# Malformed versions

A body states two versions, each by the first literal that it gives for it; whether that literal is
well-formed is only looked at afterwards. So a malformed value counts as absent where another value
is stated before it, and where what is stated next is malformed too or nothing is. Where it is the
first value and a well-formed one follows, it hides that one: taking it out brings a version to
light.
-/

namespace Blueprint.VersionInfo

open Hcl

/-- The blocks in which a body can name its module, in source order. -/
def namingBlocks (body : Body) : List Block :=
  (body.blocksOf "terraform").flatMap fun block =>
    (block.body.blocksOf "provider_meta").filter namesModule

theorem moduleName?_eq_findSome? (body : Body) :
    moduleName? body = (namingBlocks body).findSome? fun block => block.body.string? "module_name" := by
  rw [moduleName?, List.filter_flatMap, namingBlocks]

/-- The two versions that a body states: the one required of the deploying tool, and that of the
blueprint. -/
inductive Stated where
  | tool
  | blueprint
deriving DecidableEq, Repr

namespace Stated

/-- The attribute that states a version. -/
def key : Stated → String
  | tool => "required_version"
  | blueprint => "module_name"

private theorem key_inj {stated other : Stated} (same : stated.key = other.key) :
    stated = other := by
  cases stated <;> cases other <;> first | rfl | exact absurd same (by decide)

/-- Which texts state a version. -/
def WellFormed : Stated → String → Prop
  | tool, raw => ∃ constraint, Constraint.parse raw = .ok constraint
  | blueprint, raw => ∃ front version, raw = front ++ "/v" ++ version ∧
    ∃ read, Version.parse version.toList = .ok read

/-- The places at which a version is stated: in a `terraform` block, and in such a block in a
`provider_meta` block of a provider that names modules. -/
inductive At : Stated → Place → Prop where
  | tool (front : Body) (labels : List String) (before after back : Body) :
      At .tool (.inside front "terraform" labels (.here before after) back)
  | blueprint (front front' : Body) (labels labels' : List String) (before after back' back : Body) :
      labels'.head? = some "google" ∨ labels'.head? = some "google-beta" →
      At .blueprint (.inside front "terraform" labels
        (.inside front' "provider_meta" labels' (.here before after) back') back)

/-- The first literal that a `terraform` block gives for a version. -/
def inBlock? : Stated → Body → Option String
  | tool, body => body.string? "required_version"
  | blueprint, body => ((body.blocksOf "provider_meta").filter namesModule).findSome? fun block =>
    block.body.string? "module_name"

/-- The first literal that a body gives for a version. -/
def first? (stated : Stated) (body : Body) : Option String :=
  (body.blocksOf "terraform").findSome? fun block => stated.inBlock? block.body

/-- The version that a literal states. -/
def read? : Stated → String → Option String
  | tool, raw =>
    match Constraint.parse raw with
    | .ok constraint => some constraint.raw
    | .error _ => none
  | blueprint, raw => ofModuleName? raw

private theorem read?_eq_none_iff {stated : Stated} {raw : String} :
    stated.read? raw = none ↔ ¬ stated.WellFormed raw := by
  cases stated with
  | tool => cases parsed : Constraint.parse raw <;> simp [read?, WellFormed, parsed]
  | blueprint =>
    simp only [read?, WellFormed, Option.eq_none_iff_forall_not_mem, Option.mem_def,
      ofModuleName?_eq_some_iff]
    grind

/-- The name of the module is looked for in one `terraform` block after the other. -/
private theorem moduleName?_eq (body : Body) : moduleName? body = blueprint.first? body := by
  rw [moduleName?_eq_findSome?, namingBlocks, ← List.head?_filterMap, List.filterMap_flatMap,
    List.head?_flatMap]
  simp only [List.head?_filterMap]
  rfl

/-- The versions of a body are what its first literals state. -/
private theorem ofBody?_eq (body : Body) :
    ofBody? body =
      match (tool.first? body).bind tool.read?, (blueprint.first? body).bind blueprint.read? with
      | none, none => none
      | requiredVersion, moduleVersion => some { requiredVersion, moduleVersion } := by
  have required : required? body = (tool.first? body).bind tool.read? := rfl
  have module : (moduleName? body).bind ofModuleName? =
      (blueprint.first? body).bind blueprint.read? := by
    rw [moduleName?_eq]
    rfl
  simp only [ofBody?, required, module]
  cases (tool.first? body).bind tool.read? <;>
    cases (blueprint.first? body).bind blueprint.read? <;> rfl

/-- Bodies state the same versions if their first literals do. -/
theorem ofBody?_eq_iff {body other : Body} :
    ofBody? body = ofBody? other ↔
      ∀ stated : Stated, (stated.first? body).bind stated.read? =
        (stated.first? other).bind stated.read? := by
  have both : (∀ stated : Stated, (stated.first? body).bind stated.read? =
        (stated.first? other).bind stated.read?) ↔
      (tool.first? body).bind tool.read? = (tool.first? other).bind tool.read? ∧
        (blueprint.first? body).bind blueprint.read? =
          (blueprint.first? other).bind blueprint.read? := by
    refine ⟨fun all => ⟨all tool, all blueprint⟩, fun ⟨first, second⟩ stated => ?_⟩
    cases stated with
    | tool => exact first
    | blueprint => exact second
  rw [both, ofBody?_eq, ofBody?_eq]
  cases (tool.first? body).bind tool.read? <;>
    cases (blueprint.first? body).bind blueprint.read? <;>
    cases (tool.first? other).bind tool.read? <;>
    cases (blueprint.first? other).bind blueprint.read? <;> simp

/-! ## First literals around a place -/

@[simp] theorem first?_nil (stated : Stated) : stated.first? [] = none := rfl

@[simp] theorem first?_append (stated : Stated) (front back : Body) :
    stated.first? (front ++ back) = (stated.first? front).or (stated.first? back) := by
  simp [first?, List.findSome?_append]

@[simp] theorem first?_assign (stated : Stated) (name : String) (value : Expr) (back : Body) :
    stated.first? (.assign name value :: back) = stated.first? back := by
  simp [first?]

theorem first?_block (stated : Stated) (kind : String) (labels : List String) (inner back : Body) :
    stated.first? (.block kind labels inner :: back) =
      (if kind = "terraform" then stated.inBlock? inner else none).or (stated.first? back) := by
  rw [first?, Body.blocksOf_block, List.findSome?_append]
  by_cases same : kind = "terraform" <;> simp [first?, same]

@[simp] theorem inBlock?_blueprint_nil : blueprint.inBlock? [] = none := rfl

theorem inBlock?_blueprint_append (front back : Body) :
    blueprint.inBlock? (front ++ back) = (blueprint.inBlock? front).or (blueprint.inBlock? back) := by
  simp [inBlock?, List.findSome?_append]

/-- The literal that a block in a `terraform` block gives for the version of the blueprint. -/
def inMeta? (block : Block) : Option String :=
  if block.kind = "provider_meta" ∧ namesModule block = true then block.body.string? "module_name"
  else none

theorem inBlock?_blueprint_block (kind : String) (labels : List String) (inner back : Body) :
    blueprint.inBlock? (.block kind labels inner :: back) =
      (inMeta? ⟨kind, labels, inner⟩).or (blueprint.inBlock? back) := by
  rw [inBlock?, inBlock?, Body.blocksOf_block, List.filter_append, List.findSome?_append, inMeta?]
  by_cases isMeta : kind = "provider_meta"
  · subst isMeta
    by_cases named : namesModule ⟨"provider_meta", labels, inner⟩ = true <;> simp [named]
  · simp [isMeta]

@[simp] theorem inBlock?_blueprint_assign (name : String) (value : Expr) (back : Body) :
    blueprint.inBlock? (.assign name value :: back) = blueprint.inBlock? back := rfl

/-- An assignment at a place is read: it states a version, and its name is not assigned before. -/
structure Reads (stated : Stated) (place : Place) (name : String) : Prop where
  atPlace : stated.At place
  named : name = stated.key
  free : ¬ place.Assigned name

/-- What a `terraform` block gives is the same without an assignment that is not read. -/
private theorem inBlock?_fill_eq {stated : Stated} {inner : Place} {name : String} (value : Expr)
    (unread : ∀ front labels back,
      ¬ stated.Reads (.inside front "terraform" labels inner back) name) :
    stated.inBlock? (inner.fill [.assign name value]) = stated.inBlock? (inner.fill []) := by
  -- An assignment can only be read where it is the first one of its name in the block that counts.
  cases stated with
  | tool =>
    rw [inBlock?, inBlock?, Body.string?, Body.string?, Place.attribute?_fill_eq value]
    rintro before after rfl same
    by_contra free
    exact unread [] [] [] ⟨.tool [] [] before after [], same.symm, free⟩
  | blueprint =>
    cases inner with
    | here before after => simp [Place.fill, inBlock?_blueprint_append]
    | inside front kind labels inner back =>
      simp only [Place.fill, inBlock?_blueprint_append, inBlock?_blueprint_block, inMeta?]
      by_cases names : kind = "provider_meta" ∧
          (labels.head? = some "google" ∨ labels.head? = some "google-beta")
      · obtain ⟨rfl, named⟩ := names
        have same : (inner.fill [.assign name value]).string? "module_name" =
            (inner.fill []).string? "module_name" := by
          rw [Body.string?, Body.string?, Place.attribute?_fill_eq value]
          rintro before after rfl same
          by_contra free
          have atPlace := At.blueprint [] front [] labels before after back [] named
          exact unread [] [] [] ⟨atPlace, same.symm, free⟩
        simp [namesModule, Block.name?, same]
      · simp [namesModule, Block.name?, names]

/-- The first literal is the same without an assignment that is not read. -/
theorem first?_fill_eq {stated : Stated} {place : Place} {name : String} (value : Expr)
    (unread : ¬ stated.Reads place name) :
    stated.first? (place.fill [.assign name value]) = stated.first? (place.fill []) := by
  cases place with
  | here front back => simp [Place.fill]
  | inside front kind labels inner back =>
    simp only [Place.fill, first?_append, first?_block]
    by_cases isTerraform : kind = "terraform"
    · subst isTerraform
      -- Which statements stand around the block plays no part in whether an assignment in it is read.
      have unreadInside : ∀ front labels back,
          ¬ stated.Reads (.inside front "terraform" labels inner back) name := by
        rintro _ _ _ ⟨atPlace, named, free⟩
        refine unread ⟨?_, named, free⟩
        cases atPlace with
        | tool _ _ before after => exact .tool front labels before after back
        | blueprint _ front' _ labels' before after back' _ provider =>
          exact .blueprint front front' labels labels' before after back' back provider
      rw [inBlock?_fill_eq value unreadInside]
    · simp [isTerraform]

/-- Around an assignment that is read, the first literal is one that stands before it, or else the
value that it assigns; without it, one that stands after it. -/
private theorem first?_fill_of_reads {stated : Stated} {place : Place} {value : Expr} {raw : String}
    (reads : stated.Reads place stated.key) (literal : value.scalarText? = some raw) :
    stated.first? (place.fill [.assign stated.key value]) =
        (stated.first? place.before).or (some raw) ∧
      stated.first? (place.fill []) =
        (stated.first? place.before).or (stated.first? place.after) := by
  obtain ⟨atPlace, -, free⟩ := reads
  cases atPlace with
  | tool front labels before after back =>
    have unassigned : before.attribute? "required_version" = none := by
      simpa [Place.Assigned, key] using free
    obtain ⟨filled, emptied⟩ := Place.attribute?_fill_here unassigned value after
    simp_all [Place.fill, Place.before, Place.after, first?_block, inBlock?, Body.string?, key]
  | blueprint front front' labels labels' before after back' back named =>
    have unassigned : before.attribute? "module_name" = none := by
      simpa [Place.Assigned, key] using free
    obtain ⟨filled, emptied⟩ := Place.attribute?_fill_here unassigned value after
    simp_all [Place.fill, Place.before, Place.after, first?_block, inBlock?_blueprint_append,
      inBlock?_blueprint_block, inMeta?, namesModule, Block.name?, Body.string?, key, Option.or_assoc]

end Stated

open Stated in
/-- Taking a malformed value out changes no version, unless it is the first one stated and a
well-formed one is stated next. -/
theorem ofBody?_without_malformed_iff {stated : Stated} {place : Place} {value : Expr} {raw : String}
    (literal : value.scalarText? = some raw) (malformed : ¬ stated.WellFormed raw) :
    ofBody? (place.fill []) = ofBody? (place.fill [.assign stated.key value]) ↔
      (stated.At place → place.Assigned stated.key ∨ (stated.first? place.before).isSome ∨
        ∀ next, stated.first? place.after = some next → ¬ stated.WellFormed next) := by
  -- The other version is stated elsewhere, so that only the one whose value is taken out matters.
  have only : (∀ other : Stated, (other.first? (place.fill [])).bind other.read? =
        (other.first? (place.fill [.assign stated.key value])).bind other.read?) ↔
      (stated.first? (place.fill [])).bind stated.read? =
        (stated.first? (place.fill [.assign stated.key value])).bind stated.read? := by
    refine ⟨fun all => all stated, fun same other => ?_⟩
    by_cases equal : other = stated
    · rw [equal, same]
    · rw [first?_fill_eq value fun reads => equal (key_inj reads.named.symm)]
  rw [ofBody?_eq_iff, only]
  by_cases reads : stated.Reads place stated.key
  · have ignored : stated.read? raw = none := read?_eq_none_iff.mpr malformed
    obtain ⟨filled, emptied⟩ := first?_fill_of_reads reads literal
    rw [filled, emptied]
    -- Where nothing is stated before, the malformed value gives way to what is stated after it.
    cases stated.first? place.before with
    | some earlier => simp
    | none => simp [ignored, Option.bind_eq_none_iff, read?_eq_none_iff, reads.atPlace, reads.free]
  · rw [first?_fill_eq value reads]
    refine iff_of_true rfl fun atPlace => .inl ?_
    by_contra free
    exact reads ⟨atPlace, rfl, free⟩

/-- The end of a `terraform` block that names the module well, in a second `provider_meta` block. -/
def secondName : Place :=
  .inside [] "terraform" []
    (.inside
      [.assign "required_version" (.string ">= 1.3"),
        .block "provider_meta" ["google"] [.assign "module_name" (.string "modules/run/v1.2.0")]]
      "provider_meta" ["google-beta"] (.here [] []) [])
    []

theorem ofBody?_without_malformed_secondName :
    (Expr.string "modules/run").scalarText? = some "modules/run" ∧
      ¬ Stated.blueprint.WellFormed "modules/run" ∧
      ofBody? (secondName.fill []) =
        ofBody? (secondName.fill [.assign "module_name" (.string "modules/run")]) := by
  have malformed : ¬ Stated.blueprint.WellFormed "modules/run" :=
    Stated.read?_eq_none_iff.mp (by decide +kernel)
  have before : (Stated.blueprint.first? secondName.before).isSome := by decide +kernel
  refine ⟨rfl, malformed, ?_⟩
  exact (ofBody?_without_malformed_iff rfl malformed).mpr fun _ => .inr (.inl before)

/-- A `terraform` block before another one that requires a version. -/
def blockBefore : Place :=
  .inside [] "terraform" [] (.here [] [])
    [.block "terraform" [] [.assign "required_version" (.string ">= 1.3")]]

/-- A malformed value that is stated first hides the well-formed one that is stated next. -/
theorem malformed_hides_next :
    ¬ Stated.tool.WellFormed "not a version" ∧
      ofBody? (blockBefore.fill [.assign "required_version" (.string "not a version")]) = none ∧
      ofBody? (blockBefore.fill []) = some { requiredVersion := some ">= 1.3" } := by
  refine ⟨Stated.read?_eq_none_iff.mp ?_, ?_, ?_⟩ <;> decide +kernel

end Blueprint.VersionInfo
