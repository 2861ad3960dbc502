import Blueprint.Metadata.Document
import Blueprint.Proofs.Json.Grammar
import Blueprint.Proofs.Metadata.Decode

/-!
# JSON documents round-trip

The JSON trees of values answer readers of records faithfully, so a document that a text can hold is
read back from its JSON, whether that is spread over lines or not.
-/

namespace Blueprint

namespace Json.Bounded

/-- The tree of a value, from which some levels may be read. -/
def ofValue (depth : Nat) (value : Value) : Bounded :=
  ⟨Json.ofValue value, depth⟩

/-- A name that is not repeated is the name of the field that look-up finds. -/
private theorem member?_ofFields {fields : List (String × Value)}
    (distinct : (fields.map Prod.fst).Nodup) (name : String) :
    member? (ofFields fields) name = some ((fields.lookup name).map Json.ofValue) := by
  have asked : (ofFields fields).filter (fun member => member.1 == some name) =
      ((fields.lookup name).map fun value => (some name, Json.ofValue value)).toList := by
    rw [ofFields_eq_map]
    exact filter_map_entries distinct fun _ => rfl
  rw [member?, asked]
  cases fields.lookup name <;> rfl

private theorem count?_ofNat {depth n : Nat} (small : n < 18446744073709551616) :
    count? (ofValue depth (.ofNat n)) = some n := by
  have whole : Whole.ofNat? n = some ⟨n, by omega⟩ := dif_pos small
  rw [Value.ofNat, whole]
  simp [count?, ofValue, Json.ofValue, Whole.toNat?]

/-- JSON trees of values answer as the values would. -/
private theorem faithful : accessors.Faithful ofValue where
  record {depth names fields} distinct := by
    have known : (ofFields fields).all (fun member => member.1.isSome) = true := by
      simp [ofFields_eq_map]
    show (if _ then _ else none) = _
    rw [if_pos known]
    refine mapM_eq_some_map fun name _ => ?_
    rw [member?_ofFields distinct, Option.map_some, Option.map_map]
    rfl
  items {depth items} := by
    show some ((ofItems items).map fun json => Bounded.mk json depth) = _
    rw [ofItems_eq_map, List.map_map]
    rfl
  entries {depth fields} := by
    show (ofFields fields).mapM (fun member => member.1.map fun name =>
      (name, Bounded.mk member.2 depth)) = _
    rw [ofFields_eq_map, List.mapM_map]
    exact mapM_eq_some_map fun _ _ => rfl
  text := rfl
  bool := rfl
  count := count?_ofNat
  value exact shallow := toValue?_ofValue _ exact.canonical shallow
  choice {depth name} := by cases depth <;> rfl
  present {depth value} notNull := by
    cases value with
    | null => contradiction
    | _ => rfl
  absent := rfl

end Json.Bounded

namespace Metadata

/-- The tree of a document is read from its JSON. -/
private theorem tree_render_json {document : Metadata} (floatFree : document.toValue.FloatFree)
    (spread : Bool) :
    Json.parse? (document.render .json spread) = some (Json.ofValue document.toValue) := by
  cases spread with
  | false =>
    have read := Json.parse?_render floatFree false Json.blank_nil
    rwa [String.ofList_nil, String.append_empty] at read
  | true => exact Json.parse?_render floatFree true (Json.blank_newline 0)

theorem read?_render_json {document : Metadata} (exact : document.Exact)
    (shallow : document.toValue.nesting ≤ Json.maxDepth) (spread : Bool) :
    read? .json (document.render .json spread) = some document.withoutNulls := by
  rw [read?, tree_render_json exact.floatFree spread, Option.bind_some]
  exact decode_toValue Json.Bounded.faithful exact shallow

/-- A document is what is read from its JSON. -/
theorem parse_render_json {document : Metadata} (expressible : document.Expressible)
    (shallow : document.toValue.nesting ≤ Json.maxDepth) (spread : Bool) (path : String) :
    parse path .json (document.render .json spread) = .ok document := by
  rw [parse, read?_render_json expressible.exact shallow spread, expressible.withoutNulls]

/-- A document with a nested default, and with text that cannot be written as it is. -/
def clusterDocument : Metadata where
  resource := { name := "cluster", labels := .ofList [("zone", "b"), ("team", "infra")] }
  spec :=
    { info := { title := "Cluster \"é\"\t\x01", source := some { repo := "r", sourceType := "git" } }
      interfaces :=
        { inputs :=
            [{ name := "pools", description := "Line\nbreak \\ \x1f", order := some 0
               defaultValue := some (.object
                 [("empty", .array []),
                  ("sizes", .array [.number (.whole ⟨-1, by decide⟩), .null, .bool true])])
               connections := [{ spec := { inputPath := some "" } }] }]
          outputs := [{ name := "id", type := some (.array [.string "list", .string "string"]) }] }
      requirements :=
        { roles := [{ level := .project, roles := ["roles/viewer"] }], services := [""] } }

theorem parse_render_json_cluster :
    clusterDocument.Expressible ∧ clusterDocument.toValue.nesting ≤ Json.maxDepth ∧
      parse "m.json" .json (clusterDocument.render .json true) = .ok clusterDocument := by
  have expressible : clusterDocument.Expressible := by
    constructor
    · intro v member
      obtain rfl := List.mem_singleton.mp member
      refine ⟨fun value found => ?_, fun n found => ?_⟩
      · cases found
        exact ⟨Value.noConfusion, by simp,
          by simp [Value.Canonical, Value.CanonicalFields, Value.CanonicalItems]; decide +kernel⟩
      · cases found
        decide
    · intro o member value found
      obtain rfl := List.mem_singleton.mp member
      cases found
      exact ⟨Value.noConfusion, by simp, by simp [Value.Canonical, Value.CanonicalItems]⟩
  have shallow : clusterDocument.toValue.nesting ≤ Json.maxDepth := by
    decide +kernel
  exact ⟨expressible, shallow, parse_render_json expressible shallow true "m.json"⟩

end Metadata
end Blueprint
