import Blueprint.Proofs.Merge
import Mathlib.Data.List.Forall2

/-!
# Which document counts in a merge

Field by field, what a merged document has of the new document and of the earlier one. Names, titles
and connections of the earlier document count where it has any. The source, the versions and the
types of outputs are those of the new document where it has them. Labels go by the second rule too,
so that those of the earlier document give way to labels of the new one; only where one of the two
documents has none, or both have the same, is that what the first rule gives. Everything else is
the new document's.
-/

namespace Blueprint

variable {α : Type}

/-- An item is the first one of a name. -/
def IsFirstNamed (name : α → String) (items : List α) (text : String) (item : α) : Prop :=
  ∃ front back, items = front ++ item :: back ∧ name item = text ∧
    ∀ other ∈ front, name other ≠ text

private theorem find?_name_eq_some_iff {name : α → String} {items : List α} {text : String}
    {item : α} :
    items.find? (fun other => name other == text) = some item ↔
      IsFirstNamed name items text item := by
  rw [List.find?_eq_some_iff_append]
  constructor
  · rintro ⟨same, front, back, rfl, others⟩
    exact ⟨front, back, rfl, by simpa using same, by simpa using others⟩
  · rintro ⟨front, back, rfl, same, others⟩
    exact ⟨by simpa using same, front, back, rfl, by simpa using others⟩

private theorem find?_name_eq_none_iff {name : α → String} {items : List α} {text : String} :
    items.find? (fun other => name other == text) = none ↔
      ∀ item, ¬ IsFirstNamed name items text item := by
  simp only [← find?_name_eq_some_iff, Option.eq_none_iff_forall_not_mem, Option.mem_def]

private theorem SortedMap.isEmpty_iff {map : SortedMap α} : map.isEmpty = true ↔ map = .empty := by
  constructor
  · intro none
    obtain ⟨entries, ascending⟩ := map
    obtain rfl : entries = [] := List.isEmpty_iff.mp none
    rfl
  · rintro rfl
    rfl

private theorem keepText_eq_ite (previous new : String) :
    keepText previous new = if previous = "" then new else previous := by
  simp [keepText, String.isEmpty_iff]

private theorem fillText_eq_ite (new previous : String) :
    fillText new previous = if new = "" then previous else new := by
  simp [fillText, String.isEmpty_iff]

/-- Which connections an element has after a merge: those of the first element of its name in the
earlier document where that has any, and else its own. -/
structure ConnectionsKept (name : α → String) (connections : α → List Connection) (earlier : List α)
    (own kept : α) : Prop where
  ofEarlier : ∀ first, IsFirstNamed name earlier (name own) first → connections first ≠ [] →
    connections kept = connections first
  ofNew : (∀ first, IsFirstNamed name earlier (name own) first → connections first = []) →
    connections kept = connections own

/-- Which type an output has after a merge: its own where it has one, else that of the first output
of its name in the earlier document, if there is one. -/
structure TypeFilled (earlier : List Output) (own kept : Output) : Prop where
  ofNew : own.type ≠ none → kept.type = own.type
  ofEarlier : own.type = none → ∀ first, IsFirstNamed (·.name) earlier own.name first →
    kept.type = first.type
  unknown : own.type = none → (∀ first, ¬ IsFirstNamed (·.name) earlier own.name first) →
    kept.type = none

namespace Metadata

/-- What a merged document has of the new document and of the earlier one. -/
structure Precedence (new existing merged : Metadata) : Prop where
  name : merged.resource.name =
    if existing.resource.name = "" then new.resource.name else existing.resource.name
  title : merged.spec.info.title =
    if existing.spec.info.title = "" then new.spec.info.title else existing.spec.info.title
  labels : merged.resource.labels =
    if new.resource.labels = .empty then existing.resource.labels else new.resource.labels
  /-- Earlier labels count like an earlier name exactly where no choice is to be made. -/
  labelsLikeName : merged.resource.labels =
      (if existing.resource.labels = .empty then new.resource.labels
        else existing.resource.labels) ↔
    new.resource.labels = .empty ∨ existing.resource.labels = .empty ∨
      new.resource.labels = existing.resource.labels
  source : merged.spec.info.source =
    if new.spec.info.source = none then existing.spec.info.source else new.spec.info.source
  version : merged.spec.info.version =
    if new.spec.info.version = "" then existing.spec.info.version else new.spec.info.version
  toolVersion : merged.spec.info.actuationTool.version =
    if new.spec.info.actuationTool.version = "" then existing.spec.info.actuationTool.version
    else new.spec.info.actuationTool.version
  /-- Each variable in its place, with nothing but its connections changed. -/
  inputs : List.Forall₂ (fun own kept =>
      ConnectionsKept (·.name) (·.connections) existing.spec.interfaces.inputs own kept ∧
        kept = { own with connections := kept.connections })
    new.spec.interfaces.inputs merged.spec.interfaces.inputs
  /-- Each output in its place, with nothing but its connections and its type changed. -/
  outputs : List.Forall₂ (fun own kept =>
      ConnectionsKept (·.name) (·.connections) existing.spec.interfaces.outputs own kept ∧
        TypeFilled existing.spec.interfaces.outputs own kept ∧
        kept = { own with connections := kept.connections, type := kept.type })
    new.spec.interfaces.outputs merged.spec.interfaces.outputs
  apiVersion : merged.apiVersion = new.apiVersion
  kind : merged.kind = new.kind
  flavor : merged.spec.info.actuationTool.flavor = new.spec.info.actuationTool.flavor
  requirements : merged.spec.requirements = new.spec.requirements

end Metadata

/-- Connections kept of what is found by name are those of the first element of that name. -/
private theorem connectionsKept_of_find? {name : α → String} {connections : α → List Connection}
    {earlier : List α} {own kept : α}
    (same : connections kept =
      keepConnections ((earlier.find? fun other => name other == name own).map connections)
        (connections own)) :
    ConnectionsKept name connections earlier own kept := by
  constructor
  case ofEarlier =>
    intro first isFirst nonempty
    rw [same, find?_name_eq_some_iff.mpr isFirst]
    obtain ⟨c, rest, some⟩ := List.exists_cons_of_ne_nil nonempty
    simp [some, keepConnections]
  case ofNew =>
    intro none
    rw [same]
    cases found : earlier.find? fun other => name other == name own with
    | none => rfl
    | some first =>
      simp [none first (find?_name_eq_some_iff.mp found), keepConnections]

private theorem typeFilled_takeOver (existing : Interface) (own : Output) :
    TypeFilled existing.outputs own (own.takeOver existing) := by
  constructor
  case ofNew =>
    intro typed
    obtain ⟨type, known⟩ := Option.ne_none_iff_exists'.mp typed
    simp [Output.takeOver, known]
  case ofEarlier =>
    intro untyped first isFirst
    have found : existing.outputNamed? own.name = some first := find?_name_eq_some_iff.mpr isFirst
    simp [Output.takeOver, untyped, found]
  case unknown =>
    intro untyped absent
    have missing : existing.outputNamed? own.name = none := find?_name_eq_none_iff.mpr absent
    simp [Output.takeOver, untyped, missing]

namespace Metadata

/-- Every field of a merged document is taken from the document that counts for it. -/
theorem precedence_merge (new existing : Metadata) :
    Precedence new existing (new.merge existing) := by
  have labels : (new.merge existing).resource.labels =
      if new.resource.labels = .empty then existing.resource.labels else new.resource.labels := by
    simp [merge_eq, SortedMap.isEmpty_iff]
  -- Lists are compared pointwise; every other field is a choice between two texts or two options.
  rw [merge_eq] at labels ⊢
  constructor
  case labels => exact labels
  case labelsLikeName =>
    rw [labels]
    by_cases noneNew : new.resource.labels = .empty <;>
      by_cases noneEarlier : existing.resource.labels = .empty <;>
        simp [noneNew, noneEarlier]
  case source => cases given : new.spec.info.source <;> simp [Info.keep, given]
  case inputs =>
    refine List.forall₂_map_right_iff.mpr (List.forall₂_same.mpr fun own _ => ?_)
    exact ⟨connectionsKept_of_find? rfl, rfl⟩
  case outputs =>
    refine List.forall₂_map_right_iff.mpr (List.forall₂_same.mpr fun own _ => ?_)
    exact ⟨connectionsKept_of_find? rfl, typeFilled_takeOver existing.spec.interfaces own, rfl⟩
  all_goals simp [Info.keep, keepText_eq_ite, fillText_eq_ite]

/-- A document with one label. -/
def labelled (team : String) : Metadata where
  resource := { name := "cluster", labels := .ofList [("team", team)] }

/-- Labels of an earlier document are lost where the new document has other ones, although its name
and its title are kept. -/
theorem merge_loses_labels :
    (labelled "infra").resource.labels ≠ .empty ∧
      ((labelled "platform").merge (labelled "infra")).resource.labels =
        (labelled "platform").resource.labels ∧
      ((labelled "platform").merge (labelled "infra")).resource.labels ≠
        (labelled "infra").resource.labels := by
  decide

end Metadata
end Blueprint
