import Blueprint.Proofs.Versions.Malformed
import Mathlib.Data.List.Infix

/-!
# The version of the blueprint

The version of the blueprint is exactly what stands behind `/v` at the end of the first literal that
names the module, if that is a version. A name ends in `/v` and a version in one way at most, and a
search from the left finds the same end as one from the right. The two versions of a body do not
touch each other: each is the same whatever is stated for the other one, in whichever block.
-/

namespace Blueprint

namespace Hcl

mutual
/-- A body without the statements that a test drops, at any depth. -/
def Body.without (drops : Structure → Bool) : Body → Body
  | [] => []
  | statement :: rest =>
    if drops statement then Body.without drops rest
    else Structure.without drops statement :: Body.without drops rest

/-- A statement without what a test drops in it. -/
def Structure.without (drops : Structure → Bool) : Structure → Structure
  | .assign name value => .assign name value
  | .block kind labels inner => .block kind labels (Body.without drops inner)
end

def Block.without (drops : Structure → Bool) (block : Block) : Block :=
  { block with body := block.body.without drops }

@[simp] theorem Block.body_without (drops : Structure → Bool) (block : Block) :
    (block.without drops).body = block.body.without drops := rfl

namespace Body

variable {drops : Structure → Bool}

/-- A name that no test drops is assigned what it was assigned before. -/
private theorem attribute?_without {name : String}
    (kept : ∀ value, drops (.assign name value) = false)
    (body : Body) : (body.without drops).attribute? name = body.attribute? name := by
  induction body with
  | nil => rfl
  | cons statement rest ih =>
    rw [without]
    split
    · next dropped =>
      cases statement with
      | assign other value =>
        -- What is dropped has another name, so that looking the name up went past it.
        have different : name ≠ other := by
          rintro rfl
          simp [kept] at dropped
        rw [ih, attribute?_assign, if_neg different]
      | block kind labels inner => rw [ih, attribute?_block]
    · cases statement with
      | assign other value => rw [Structure.without, attribute?_assign, attribute?_assign, ih]
      | block kind labels inner => rw [Structure.without, attribute?_block, attribute?_block, ih]

private theorem string?_without {name : String} (kept : ∀ value, drops (.assign name value) = false)
    (body : Body) : (body.without drops).string? name = body.string? name := by
  rw [string?, attribute?_without kept, string?]

/-- Of a kind that no test drops, every block is still there, without what was dropped in it. -/
private theorem blocksOf_without {kind : String}
    (kept : ∀ labels inner, drops (.block kind labels inner) = false) (body : Body) :
    (body.without drops).blocksOf kind = (body.blocksOf kind).map (Block.without drops) := by
  -- A statement that is dropped is no block of this kind; one that is kept keeps its kind.
  induction body with
  | nil => rfl
  | cons statement rest ih =>
    rw [without]
    split
    · next dropped =>
      cases statement with
      | assign name value => rw [ih, blocksOf_assign]
      | block other labels inner =>
        have different : other ≠ kind := by
          rintro rfl
          simp [kept] at dropped
        rw [ih, blocksOf_block, if_neg different, List.nil_append]
    · cases statement with
      | assign name value => rw [Structure.without, blocksOf_assign, blocksOf_assign, ih]
      | block other labels inner =>
        rw [Structure.without, blocksOf_block, blocksOf_block, ih, List.map_append]
        split <;> rfl

end Body
end Hcl

namespace VersionInfo

open Hcl

/-! ## The end of a name -/

/-- A name is a front, the mark `/v` and a version. -/
structure EndsInVersion (name front version : String) : Prop where
  written : name = front ++ "/v" ++ version
  valid : ∃ read, Version.parse version.toList = .ok read

private theorem ofModuleName?_iff_endsInVersion {name version : String} :
    ofModuleName? name = some version ↔ ∃ front, EndsInVersion name front version := by
  rw [ofModuleName?_eq_some_iff]
  constructor
  · rintro ⟨⟨front, written⟩, valid⟩
    exact ⟨front, written, valid⟩
  · rintro ⟨front, written, valid⟩
    exact ⟨⟨front, written⟩, valid⟩

/-- A name ends in a version in one way at most: there is no slash in a version. -/
private theorem EndsInVersion.unique {name front version front' version' : String}
    (ends : EndsInVersion name front version) (ends' : EndsInVersion name front' version') :
    front = front' ∧ version = version' := by
  -- The search finds both versions, so that they are one and only the fronts are left to compare.
  have found : ofModuleName? name = some version := ofModuleName?_iff_endsInVersion.mpr ⟨front, ends⟩
  have found' : ofModuleName? name = some version' :=
    ofModuleName?_iff_endsInVersion.mpr ⟨front', ends'⟩
  obtain rfl : version = version' := Option.some.inj (found.symm.trans found')
  have same : front ++ "/v" ++ version = front' ++ "/v" ++ version :=
    ends.written.symm.trans ends'.written
  rw [← String.toList_inj] at same ⊢
  exact ⟨by simpa using same, rfl⟩

/-- What stands behind the mark at the front of a text, if only characters of a suffix do. -/
def markedSuffix? : List Char → Option (List Char)
  | '/' :: 'v' :: version => if version ≠ [] ∧ version.all isSuffixChar then some version else none
  | _ => none

private theorem markedSuffix?_eq_some_iff {text version : List Char} :
    markedSuffix? text = some version ↔
      version ≠ [] ∧ (∀ c ∈ version, isSuffixChar c = true) ∧ text = '/' :: 'v' :: version := by
  unfold markedSuffix?
  split
  · next rest => grind
  · next other =>
    refine ⟨nofun, ?_⟩
    rintro ⟨-, -, rfl⟩
    exact absurd rfl (other version)

/-- A search that tries every place of a name from the left to the right finds the same end. -/
theorem versionSuffix?_eq_leftmost (name : List Char) :
    versionSuffix? name = name.tails.findSome? markedSuffix? := by
  cases search : name.tails.findSome? markedSuffix? with
  | some version =>
    obtain ⟨text, place, marked⟩ := List.exists_of_findSome?_eq_some search
    obtain ⟨nonempty, all, rfl⟩ := markedSuffix?_eq_some_iff.mp marked
    obtain ⟨front, split⟩ := (List.mem_tails ..).mp place
    exact versionSuffix?_eq_some_iff.mpr ⟨nonempty, all, front, split.symm⟩
  | none =>
    rw [Option.eq_none_iff_forall_not_mem]
    intro version found
    obtain ⟨nonempty, all, front, rfl⟩ := versionSuffix?_eq_some_iff.mp found
    -- The end that was found is one of the places that the search has tried.
    have tried : '/' :: 'v' :: version ∈ (front ++ '/' :: 'v' :: version).tails :=
      (List.mem_tails ..).mpr (List.suffix_append front _)
    have refused := List.findSome?_eq_none_iff.mp search _ tried
    rw [markedSuffix?_eq_some_iff.mpr ⟨nonempty, all, rfl⟩] at refused
    cases refused

/-! ## First literals -/

/-- The first of some blocks that has a literal for a name gives it a text. -/
def FirstLiteral (blocks : List Block) (name raw : String) : Prop :=
  ∃ before block after, blocks = before ++ block :: after ∧
    block.body.string? name = some raw ∧ ∀ other ∈ before, other.body.string? name = none

private theorem findSome?_eq_some_iff_firstLiteral {blocks : List Block} {name raw : String} :
    (blocks.findSome? fun block => block.body.string? name) = some raw ↔
      FirstLiteral blocks name raw :=
  List.findSome?_eq_some_iff

private theorem moduleName?_eq_some_iff {body : Body} {raw : String} :
    moduleName? body = some raw ↔ FirstLiteral (namingBlocks body) "module_name" raw := by
  rw [moduleName?_eq_findSome?, findSome?_eq_some_iff_firstLiteral]

/-! ## The versions apart -/

/-- The version that a body requires of the tool. -/
def requiredVersion? (body : Body) : Option String :=
  (ofBody? body).bind (·.requiredVersion)

/-- The version that a body states for the blueprint. -/
def moduleVersion? (body : Body) : Option String :=
  (ofBody? body).bind (·.moduleVersion)

private theorem requiredVersion?_eq (body : Body) : requiredVersion? body = required? body := by
  unfold requiredVersion? ofBody?
  cases required? body <;> cases (moduleName? body).bind ofModuleName? <;> rfl

private theorem moduleVersion?_eq (body : Body) :
    moduleVersion? body = (moduleName? body).bind ofModuleName? := by
  unfold moduleVersion? ofBody?
  cases required? body <;> cases (moduleName? body).bind ofModuleName? <;> rfl

private theorem ofBody?_eq_none_iff (body : Body) :
    ofBody? body = none ↔ requiredVersion? body = none ∧ moduleVersion? body = none := by
  rw [requiredVersion?_eq, moduleVersion?_eq, ofBody?]
  cases required? body <;> cases (moduleName? body).bind ofModuleName? <;> simp

/-! ## What is not read -/

/-- Whether a statement is a block in which the module can be named. -/
def isProviderMeta : Structure → Bool
  | .block kind _ _ => kind == "provider_meta"
  | .assign .. => false

/-- Whether a statement requires a version of the tool. -/
def requiresVersion : Structure → Bool
  | .assign name _ => name == "required_version"
  | .block .. => false

private theorem requiredVersion?_without (body : Body) :
    requiredVersion? (body.without isProviderMeta) = requiredVersion? body := by
  have blocks : (body.without isProviderMeta).blocksOf "terraform" =
      (body.blocksOf "terraform").map (Block.without isProviderMeta) :=
    Body.blocksOf_without (fun _ _ => rfl) body
  have literal (inner : Body) :
      (inner.without isProviderMeta).string? "required_version" = inner.string? "required_version" :=
    Body.string?_without (fun _ => rfl) inner
  rw [requiredVersion?_eq, requiredVersion?_eq, required?, required?, blocks, List.findSome?_map]
  simp only [Function.comp_def, Block.body_without, literal]

private theorem namingBlocks_without (body : Body) :
    namingBlocks (body.without requiresVersion) =
      (namingBlocks body).map (Block.without requiresVersion) := by
  have blocks (inner : Body) (kind : String) : (inner.without requiresVersion).blocksOf kind =
      (inner.blocksOf kind).map (Block.without requiresVersion) :=
    Body.blocksOf_without (fun _ _ => rfl) inner
  -- Which provider a block is about stands in its labels, and those stay.
  have named : namesModule ∘ Block.without requiresVersion = namesModule := rfl
  simp only [namingBlocks, blocks, List.flatMap_map, List.map_flatMap, List.filter_map,
    Block.body_without, named]

private theorem moduleVersion?_without (body : Body) :
    moduleVersion? (body.without requiresVersion) = moduleVersion? body := by
  have literal (inner : Body) :
      (inner.without requiresVersion).string? "module_name" = inner.string? "module_name" :=
    Body.string?_without (fun _ => rfl) inner
  rw [moduleVersion?_eq, moduleVersion?_eq, moduleName?_eq_findSome?, moduleName?_eq_findSome?,
    namingBlocks_without, List.findSome?_map]
  simp only [Function.comp_def, Block.body_without, literal]

/-! ## Main result -/

/-- Where the versions of a body come from. -/
structure StatedExactly (body : Body) : Prop where
  /-- The version of the blueprint is what stands behind the mark at the end of the first name. -/
  moduleVersion_iff : ∀ {raw version : String}, FirstLiteral (namingBlocks body) "module_name" raw →
    (moduleVersion? body = some version ↔ ∃ front, EndsInVersion raw front version)
  /-- A name can be taken apart like that in one way at most. -/
  unique : ∀ {raw front version front' version' : String}, EndsInVersion raw front version →
    EndsInVersion raw front' version' → front = front' ∧ version = version'
  /-- Any other name states no version. -/
  malformed : ∀ {raw : String}, FirstLiteral (namingBlocks body) "module_name" raw →
    (∀ front version, ¬ EndsInVersion raw front version) → moduleVersion? body = none
  /-- Without a name there is no version either. -/
  unnamed : (∀ raw, ¬ FirstLiteral (namingBlocks body) "module_name" raw) →
    moduleVersion? body = none
  /-- What is required of the tool plays no part in the version of the blueprint. -/
  moduleVersion_apart : ∀ other : Body,
    other.without requiresVersion = body.without requiresVersion →
    moduleVersion? other = moduleVersion? body
  /-- No `provider_meta` block plays a part in what is required of the tool. -/
  requiredVersion_apart : ∀ other : Body,
    other.without isProviderMeta = body.without isProviderMeta →
    requiredVersion? other = requiredVersion? body
  /-- A body states nothing exactly if it states neither of the two. -/
  nothing_iff : ofBody? body = none ↔ requiredVersion? body = none ∧ moduleVersion? body = none

/-- The version of the blueprint is what the first name of the module ends in behind `/v`, if that
is a version, and the two versions of a body do not touch each other. -/
theorem module_version_is_trailing (body : Body) : StatedExactly body where
  moduleVersion_iff := by
    intro raw version first
    rw [moduleVersion?_eq, moduleName?_eq_some_iff.mpr first]
    exact ofModuleName?_iff_endsInVersion
  unique := EndsInVersion.unique
  malformed := by
    intro raw first malformed
    rw [moduleVersion?_eq, moduleName?_eq_some_iff.mpr first]
    apply Option.eq_none_iff_forall_not_mem.mpr
    intro version found
    obtain ⟨front, ends⟩ := ofModuleName?_iff_endsInVersion.mp found
    exact malformed front version ends
  unnamed := by
    intro unnamed
    rw [moduleVersion?_eq]
    cases found : moduleName? body with
    | none => rfl
    | some raw =>
      exact absurd (moduleName?_eq_some_iff.mp found) (unnamed raw)
  moduleVersion_apart := by
    intro other same
    rw [← moduleVersion?_without, same, moduleVersion?_without]
  requiredVersion_apart := by
    intro other same
    rw [← requiredVersion?_without, same, requiredVersion?_without]
  nothing_iff := ofBody?_eq_none_iff body

/-- Only the last mark of a name counts, and a malformed requirement changes nothing. -/
example : moduleVersion? [.block "terraform" [] [.assign "required_version" (.string "newest"),
    .block "provider_meta" ["google"] [.assign "module_name" (.string "modules/v1/run/v2.3.0-rc.1")]]] =
    some "2.3.0-rc.1" := by
  decide +kernel

end VersionInfo
end Blueprint
