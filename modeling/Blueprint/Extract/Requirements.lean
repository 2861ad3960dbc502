import Blueprint.Locals
import Blueprint.Metadata

/-!
# Roles and services that a blueprint needs

Requirements are read from the setup of a blueprint. For the blueprint itself they are what its
resources and modules declare; for one of its submodules they are the entry of that module in a
local map, as written.
-/

namespace Blueprint

/-- Whose requirements are asked for. -/
inductive Selection where
  /-- The blueprint itself. -/
  | root
  /-- A submodule, by its name and the name of the local map that lists requirements by module. -/
  | submodule (name : String) (localMap : String)
deriving DecidableEq, Repr

namespace Requirements

open Hcl

/-- The list of string literals under a name in a local map; empty where there is none. -/
def moduleList (body : Body) (localMap name : String) : List String :=
  match (body.local? localMap).bind (Expr.member? name) with
  | some list => list.literalStrings
  | none => []

/-- Drops each string that is equal to the one before it. -/
def dropRepeats : List String → List String
  | [] => []
  | [s] => [s]
  | s :: t :: rest => if s = t then dropRepeats (t :: rest) else s :: dropRepeats (t :: rest)

def ascending (strings : List String) : List String :=
  dropRepeats (strings.mergeSort fun a b => a ≤ b)

/-- The roles that a block grants, if it is a resource that grants roles and they can be told. -/
def grant? (body : Body) (block : Block) : Option RoleGrant := do
  let level ← block.name?.bind RoleLevel.ofResourceType?
  let roles := ascending (Locals.attributeStrings body block.body "role")
  if roles.isEmpty then none else some { level, roles }

/-- The order of grants: by name of the level, then by number of roles, then by first role. -/
def grantLE (a b : RoleGrant) : Bool :=
  match compare a.level.name b.level.name with
  | .lt => true
  | .gt => false
  | .eq =>
    -- Only between grants at one level do the roles count.
    match compare a.roles.length b.roles.length with
    | .lt => true
    | .gt => false
    | .eq =>
      match a.roles.head?, b.roles.head? with
      | none, _ => true
      | some _, none => false
      | some x, some y => decide (x ≤ y)

/-- Grants in order; equal ones keep their places. -/
def sortGrants (grants : List RoleGrant) : List RoleGrant :=
  grants.mergeSort grantLE

def rolesOf (body : Body) : Selection → List RoleGrant
  | .root => sortGrants ((body.blocksOf "resource").filterMap (grant? body))
  | .submodule name localMap =>
    match moduleList body localMap name with
    | [] => []
    | roles => [{ level := .project, roles }]

def blockServices (body : Body) (block : Block) : List String :=
  if block.kind = "module" then Locals.attributeStrings body block.body "activate_apis"
  else if block.kind = "resource" ∧ block.name? = some "google_project_service" then
    Locals.attributeStrings body block.body "service"
  else []

/-- Strings without those that were seen before, here or in `seen`. -/
def firstSeen (seen : List String) : List String → List String
  | [] => []
  | s :: rest => if s ∈ seen then firstSeen seen rest else s :: firstSeen (s :: seen) rest

def servicesOf (body : Body) : Selection → List String
  | .root => firstSeen [] (body.blocks.flatMap (blockServices body))
  | .submodule name localMap => moduleList body localMap name

end Requirements
end Blueprint
