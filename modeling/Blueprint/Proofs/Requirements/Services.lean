import Blueprint.Proofs.Places
import Blueprint.Proofs.Requirements.Order

/-!
# Services in the order of their declarations

The services of a blueprint are what its blocks declare, one block after the other, without what was
declared before. What is resolved in a block depends on the locals alone, so statements that bring
no new locals leave the services as they were and can only add to their end (`servicesOf_append`).
-/

namespace Blueprint.Requirements

open Hcl

/-- The attribute in which a block declares services, if it does. -/
def serviceAttribute? (block : Block) : Option String :=
  if block.kind = "module" then some "activate_apis"
  else if block.kind = "resource" ∧ block.name? = some "google_project_service" then some "service"
  else none

/-- The services that blocks declare, in source order and as often as they do; references are
resolved in a body. -/
def declaredServices (body : Body) (blocks : List Block) : List String :=
  blocks.flatMap fun block =>
    match serviceAttribute? block with
    | some name => Locals.attributeStrings body block.body name
    | none => []

theorem blockServices_eq (body : Body) (block : Block) :
    blockServices body block =
      match serviceAttribute? block with
      | some name => Locals.attributeStrings body block.body name
      | none => [] := by
  unfold blockServices serviceAttribute?
  split
  · rfl
  · split <;> rfl

/-! ## First occurrences -/

/-- What was not seen before is each first occurrence of what is not in `seen`. -/
private theorem firstSeen_eq (seen strings : List String) :
    firstSeen seen strings = (strings.removeAll seen).eraseDups := by
  induction strings generalizing seen with
  | nil => rfl
  | cons first rest ih =>
    by_cases old : first ∈ seen
    · simp [firstSeen, old, ih, List.removeAll]
    · -- Seeing an item once has the rest of its occurrences left out.
      have later : rest.removeAll (first :: seen) =
          (rest.removeAll seen).filter fun s => !s == first := by
        rw [List.removeAll, List.removeAll, List.filter_filter]
        refine List.filter_congr fun s _ => ?_
        by_cases same : s = first <;> simp [same]
      rw [firstSeen, if_neg old, ih, later, ← List.eraseDups_cons]
      simp [List.removeAll, old]

/-- The services of a body are the first occurrences of what its blocks declare. -/
private theorem servicesOf_root_eq (body : Body) :
    servicesOf body .root = (declaredServices body body.blocks).eraseDups := by
  have declared : body.blocks.flatMap (blockServices body) = declaredServices body body.blocks :=
    List.flatMap_congr fun block _ => blockServices_eq body block
  simp [servicesOf, firstSeen_eq, declared, List.removeAll]

/-! ## More statements -/

/-- Statements without locals leave every local as it was. -/
private theorem local?_append_of_noLocals (body : Body) {further : Body}
    (noLocals : ∀ block ∈ further.blocks, block.kind ≠ "locals") (name : String) :
    (body ++ further).local? name = body.local? name := by
  have none : further.blocksOf "locals" = [] := by
    simpa [Body.blocksOf, List.filter_eq_nil_iff] using noLocals
  simp [Body.local?, none]

/-- Further statements without locals add the services that were not there yet, each at its first
occurrence, behind those that were. -/
theorem servicesOf_append (body : Body) {further : Body}
    (noLocals : ∀ block ∈ further.blocks, block.kind ≠ "locals") :
    servicesOf (body ++ further) .root =
      servicesOf body .root ++
        ((declaredServices body further.blocks).removeAll
          (declaredServices body body.blocks)).eraseDups := by
  -- Without new locals each block is resolved as before, the old ones and the new ones.
  have resolved (block : Block) : Locals.attributeStrings (body ++ further) block.body =
      Locals.attributeStrings body block.body :=
    funext (Locals.attributeStrings_congr (local?_append_of_noLocals body noLocals) block.body)
  have declared : declaredServices (body ++ further) (body ++ further).blocks =
      declaredServices body body.blocks ++ declaredServices body further.blocks := by
    simp [declaredServices, resolved]
  rw [servicesOf_root_eq, servicesOf_root_eq, declared, List.eraseDups_append]

/-- Blocks that are there already declare nothing new. -/
private theorem declaredServices_subset (body : Body) {blocks others : List Block}
    (repeated : ∀ block ∈ others, block ∈ blocks) (s : String)
    (member : s ∈ declaredServices body others) : s ∈ declaredServices body blocks := by
  obtain ⟨block, among, declares⟩ := List.mem_flatMap.mp member
  exact List.mem_flatMap.mpr ⟨block, repeated block among, declares⟩

/-- The services of a blueprint are the first occurrences of what its blocks declare, in source
order. Further statements without locals add to them at the end, and add nothing if their blocks are
there already. -/
theorem services_first_declared (body : Body) :
    (servicesOf body .root).Nodup ∧
    servicesOf body .root = (declaredServices body body.blocks).eraseDups ∧
    ∀ further : Body, (∀ block ∈ further.blocks, block.kind ≠ "locals") →
      servicesOf body .root <+: servicesOf (body ++ further) .root ∧
      ((∀ block ∈ further.blocks, block ∈ body.blocks) →
        servicesOf (body ++ further) .root = servicesOf body .root) := by
  refine ⟨nodup_firstSeen _ _, servicesOf_root_eq body, fun further noLocals => ⟨?_, ?_⟩⟩
  · rw [servicesOf_append body noLocals]
    exact List.prefix_append _ _
  · intro repeated
    have nothing : (declaredServices body further.blocks).removeAll
        (declaredServices body body.blocks) = [] := by
      simpa [List.removeAll, List.filter_eq_nil_iff] using declaredServices_subset body repeated
    rw [servicesOf_append body noLocals, nothing]
    simp

/-- A module that enables a service twice, and a resource that enables another one. -/
def enablingBody : Body :=
  [.block "module" ["project"]
      [.assign "activate_apis" (.array [.string "run", .string "iam", .string "run"])],
    .block "resource" ["google_project_service", "sql"] [.assign "service" (.string "sql")]]

/-- The resource of `enablingBody` once more. -/
def repeatedBody : Body :=
  [.block "resource" ["google_project_service", "sql"] [.assign "service" (.string "sql")]]

theorem services_first_declared_repeated :
    (∀ block ∈ repeatedBody.blocks, block.kind ≠ "locals") ∧
    (∀ block ∈ repeatedBody.blocks, block ∈ enablingBody.blocks) ∧
    servicesOf enablingBody .root = ["run", "iam", "sql"] ∧
    servicesOf (enablingBody ++ repeatedBody) .root = ["run", "iam", "sql"] := by
  have noLocals : ∀ block ∈ repeatedBody.blocks, block.kind ≠ "locals" := by
    simp [repeatedBody, Body.blocks, Structure.block?]
  have repeated : ∀ block ∈ repeatedBody.blocks, block ∈ enablingBody.blocks := by
    simp [repeatedBody, enablingBody, Body.blocks, Structure.block?]
  have declared : declaredServices enablingBody enablingBody.blocks = ["run", "iam", "run", "sql"] := by
    simp [enablingBody, declaredServices, serviceAttribute?, Body.blocks, Structure.block?,
      Block.name?, Locals.attributeStrings, Locals.each?, Locals.strings, Body.attribute?_assign,
      Locals.collect_array, Locals.collect_string]
  have services : servicesOf enablingBody .root = ["run", "iam", "sql"] := by
    rw [servicesOf_root_eq, declared]
    rfl
  obtain ⟨-, -, appended⟩ := services_first_declared enablingBody
  exact ⟨noLocals, repeated, services, ((appended _ noLocals).2 repeated).trans services⟩

end Blueprint.Requirements
