import Blueprint.Hcl.Literal

/-!
# Places in a body

A statement of a body stands at a place: between other statements of the body itself or of a block
in it, at any depth. A place is what is left of the body when the statement is taken out, so that a
change of one statement is two ways of filling the same place. What is looked up in a body is looked
up before the place, then at it, then after it.
-/

namespace Blueprint.Hcl

namespace Body

private theorem attribute?_append (front back : Body) (name : String) :
    attribute? (front ++ back) name = (attribute? front name).or (attribute? back name) := by
  simp [attribute?, attributes, List.filterMap_append, List.lookup_append]

theorem attribute?_assign (name other : String) (value : Expr) (back : Body) :
    attribute? (.assign name value :: back) other =
      if other = name then some value else attribute? back other := by
  have head : attributes (.assign name value :: back) = (name, value) :: attributes back := rfl
  by_cases same : other = name
  · simp [attribute?, head, same]
  · have different : (other == name) = false := by simpa using same
    simp [attribute?, head, List.lookup_cons, different, same]

@[simp] theorem attribute?_block (kind : String) (labels : List String) (inner back : Body)
    (name : String) : attribute? (.block kind labels inner :: back) name = attribute? back name :=
  rfl

@[simp] theorem blocksOf_assign (name : String) (value : Expr) (back : Body) (kind : String) :
    blocksOf (.assign name value :: back) kind = blocksOf back kind := rfl

theorem blocksOf_block (kind other : String) (labels : List String) (inner back : Body) :
    blocksOf (.block kind labels inner :: back) other =
      (if kind = other then [⟨kind, labels, inner⟩] else []) ++ blocksOf back other := by
  have head : blocks (.block kind labels inner :: back) = ⟨kind, labels, inner⟩ :: blocks back := rfl
  rw [blocksOf, head, List.filter_cons]
  by_cases same : kind = other <;> simp [blocksOf, same]

private theorem local?_append (front back : Body) (name : String) :
    local? (front ++ back) name = (local? front name).or (local? back name) := by
  simp [local?, List.findSome?_append]

@[simp] theorem local?_assign (name : String) (value : Expr) (back : Body) (other : String) :
    local? (.assign name value :: back) other = local? back other := rfl

private theorem local?_block (kind : String) (labels : List String) (inner back : Body)
    (name : String) :
    local? (.block kind labels inner :: back) name =
      (if kind = "locals" then attribute? inner name else none).or (local? back name) := by
  rw [local?, blocksOf_block, List.findSome?_append]
  by_cases same : kind = "locals" <;> simp [local?, same]

end Body

/-- A place between two statements of a body, or of a block that stands in it. -/
inductive Place where
  | here (front back : Body)
  | inside (front : Body) (kind : String) (labels : List String) (inner : Place) (back : Body)

namespace Place

/-- The body with statements put in at a place. -/
def fill : Place → Body → Body
  | here front back, statements => front ++ statements ++ back
  | inside front kind labels inner back, statements =>
    front ++ .block kind labels (inner.fill statements) :: back

/-- The body or block that a place is in, with statements put in. -/
def around : Place → Body → Body
  | here front back, statements => (here front back).fill statements
  | inside _ _ _ inner _, statements => inner.around statements

/-- What stands before a place; a block around it ends there. -/
def before : Place → Body
  | here front _ => front
  | inside front kind labels inner _ => front ++ [.block kind labels inner.before]

/-- What stands after a place; a block around it begins there. -/
def after : Place → Body
  | here _ back => back
  | inside _ kind labels inner back => .block kind labels inner.after :: back

/-- Whether the body or block that a place is in assigns a name before it. A file assigns each name
once in a body. -/
def Assigned (name : String) : Place → Prop
  | here front _ => (front.attribute? name).isSome
  | inside _ _ _ inner _ => inner.Assigned name

/-- An attribute inside a block is none of the body that the block stands in. -/
private theorem attribute?_fill_inside (front : Body) (kind : String) (labels : List String)
    (inner : Place)
    (back statements : Body) (name : String) :
    ((inside front kind labels inner back).fill statements).attribute? name =
      (front ++ back).attribute? name := by
  simp [fill, Body.attribute?_append]

/-- The body around a place is what stands before and after it there. -/
theorem exists_around (place : Place) :
    ∃ front back, place.around = (here front back).fill ∧
      ∀ name, place.Assigned name ↔ (front.attribute? name).isSome := by
  induction place with
  | here front back => exact ⟨front, back, rfl, fun _ => Iff.rfl⟩
  | inside _ _ _ inner _ ih => exact ih

theorem blocks_fill_here (front back : Body) (name : String) (value : Expr) :
    ((here front back).fill [.assign name value]).blocks = front.blocks ++ back.blocks := by
  rw [fill, Body.blocks_append, Body.blocks_append]
  exact congrArg (· ++ back.blocks) (List.append_nil front.blocks)

theorem blocks_fill_inside (front : Body) (kind : String) (labels : List String) (inner : Place)
    (back statements : Body) :
    ((inside front kind labels inner back).fill statements).blocks =
      front.blocks ++ ⟨kind, labels, inner.fill statements⟩ :: back.blocks := by
  simp [fill, Body.blocks, Structure.block?]

/-- An attribute that stands in a body itself is found unless one of its name stands before it. -/
theorem attribute?_fill_here {front : Body} {name : String}
    (unassigned : front.attribute? name = none) (value : Expr) (back : Body) :
    ((here front back).fill [.assign name value]).attribute? name = some value ∧
      ((here front back).fill []).attribute? name = back.attribute? name := by
  simp [fill, Body.attribute?_append, Body.attribute?_assign, unassigned]

/-- What is found for a name does not change by an attribute of another name, one inside a block, or
one that stands behind another one of its name. -/
theorem attribute?_fill_eq {place : Place} {name other : String} (value : Expr)
    (unread : ∀ front back, place = here front back → other = name → place.Assigned name) :
    (place.fill [.assign name value]).attribute? other = (place.fill []).attribute? other := by
  cases place with
  | inside front kind labels inner back => rw [attribute?_fill_inside, attribute?_fill_inside]
  | here front back =>
    simp only [fill, List.append_assoc, List.singleton_append, List.nil_append,
      Body.attribute?_append, Body.attribute?_assign]
    by_cases same : other = name
    · obtain ⟨first, found⟩ := Option.isSome_iff_exists.mp (unread front back rfl same)
      simp [same, found]
    · simp [same]

/-- What is made of an attribute is the same for two values of which the same is made. -/
theorem attribute?_fill_congr {β : Type} {f : Expr → β} {value value' : Expr}
    (same : f value' = f value) (place : Place) (name other : String) :
    ((place.fill [.assign name value']).attribute? other).map f =
      ((place.fill [.assign name value]).attribute? other).map f := by
  cases place with
  | inside front kind labels inner back => rw [attribute?_fill_inside, attribute?_fill_inside]
  | here front back =>
    simp only [fill, List.append_assoc, List.singleton_append, Body.attribute?_append,
      Body.attribute?_assign, Option.map_or]
    split
    · rw [Option.map_some, Option.map_some, same]
    · rfl

/-- What is made of a local is the same for two values of which the same is made. -/
theorem local?_fill_congr {β : Type} {f : Expr → β} {value value' : Expr}
    (same : f value' = f value) (place : Place) (name other : String) :
    ((place.fill [.assign name value']).local? other).map f =
      ((place.fill [.assign name value]).local? other).map f := by
  cases place with
  | here front back => simp [fill, Body.local?_append]
  | inside front kind labels inner back =>
    simp only [fill, Body.local?_append, Body.local?_block, Option.map_or]
    split
    · rw [attribute?_fill_congr same]
    · rfl

/-- A local means the same whatever is assigned at a place, unless that is its first value. -/
theorem local?_fill_eq {place : Place} {name other : String} (value value' : Expr)
    (unread : ∀ front labels before after back,
      place = inside front "locals" labels (here before after) back → other = name →
      front.local? name = none → (before.attribute? name).isSome) :
    (place.fill [.assign name value']).local? other =
      (place.fill [.assign name value]).local? other := by
  cases place with
  | here front back => simp [fill, Body.local?_append]
  | inside front kind labels inner back =>
    simp only [fill, Body.local?_append, Body.local?_block]
    split
    next isLocals =>
      subst isLocals
      -- A value that comes first hides whatever the place holds.
      cases earlier : front.local? other with
      | some first => rfl
      | none =>
        have unseen (value : Expr) : (inner.fill [.assign name value]).attribute? other =
            (inner.fill []).attribute? other := by
          refine attribute?_fill_eq value ?_
          rintro before after rfl rfl
          exact unread front labels before after back rfl rfl earlier
        rw [unseen, unseen]
    next => rfl

/-- Locals are none of the business of a block of another kind. -/
theorem local?_fill_inside {kind : String} (notLocals : kind ≠ "locals") (front : Body)
    (labels : List String) (inner : Place) (back statements : Body) (name : String) :
    ((inside front kind labels inner back).fill statements).local? name =
      (front ++ back).local? name := by
  simp [fill, Body.local?_append, Body.local?_block, notLocals]

end Place
end Blueprint.Hcl
