import Blueprint.Proofs.Value
import Blueprint.State
import Mathlib.Data.List.Forall2

/-!
# Types told by shapes

The type that is inferred from a value says its shape and nothing else. What a type is, and which
values have it, are stated by judgements on values (`IsType`, `HasType`), since types are written as
values themselves; the shape of a value is what kind of value is found at every place inside
(`SameShape`). Both the type and the shape of a value are told by its kind and by those of its parts
(`inferType?_eq_iff`, `sameShape_iff`), so they agree by induction over the parts.
-/

namespace Blueprint.Value

/-! ## Shapes -/

inductive Kind where
  | null
  | bool
  | number
  | string
  | array
  | object
deriving DecidableEq, Repr

def kind : Value → Kind
  | null => .null
  | bool _ => .bool
  | number _ => .number
  | string _ => .string
  | array _ => .array
  | object _ => .object

/-- A step from a value to a part of it. -/
inductive Step where
  | item (index : Nat)
  | field (name : String)
deriving DecidableEq, Repr

/-- The part that a step leads to. -/
def part? : Value → Step → Option Value
  | array items, .item index => items[index]?
  | object fields, .field name => fields.lookup name
  | _, _ => none

/-- What is found at a place inside a value, given by the steps to it. -/
def at? (value : Value) : List Step → Option Value
  | [] => some value
  | step :: rest => (value.part? step).bind fun part => part.at? rest

/-- At every place there is a value of the same kind in both, or none in either. So arrays have the
same lengths, and objects the same keys. -/
def SameShape (v w : Value) : Prop :=
  ∀ place, (v.at? place).map kind = (w.at? place).map kind

/-- Values have the same shape if they are of the same kind and have parts of the same shapes. -/
theorem sameShape_iff {v w : Value} :
    v.SameShape w ↔ v.kind = w.kind ∧ ∀ step place,
      ((v.part? step).bind fun part => part.at? place).map kind =
        ((w.part? step).bind fun part => part.at? place).map kind := by
  constructor
  · intro same
    exact ⟨Option.some.inj (same []), fun step place => same (step :: place)⟩
  · rintro ⟨kinds, parts⟩ place
    cases place with
    | nil => exact congrArg some kinds
    | cons step rest => exact parts step rest

/-! ## Types -/

mutual
/-- A type as a state records it. -/
inductive IsType : Value → Prop where
  | bool : IsType (.string "bool")
  | number : IsType (.string "number")
  | string : IsType (.string "string")
  | tuple {types : List Value} : (∀ type ∈ types, IsPartType type) →
      IsType (.array [.string "tuple", .array types])
  | object {types : List (String × Value)} : AscendingKeys types →
      (∀ type ∈ types, IsPartType type.2) → IsType (.array [.string "object", .object types])

/-- The type of a part of a value: of a part that is null, nothing is known. -/
inductive IsPartType : Value → Prop where
  | dynamic : IsPartType (.string "dynamic")
  | known {type : Value} : IsType type → IsPartType type
end

mutual
/-- A value has a type: it is of that kind, and its parts have the types of the parts. -/
inductive HasType : Value → Value → Prop where
  | bool (b : Bool) : HasType (.bool b) (.string "bool")
  | number (n : Number) : HasType (.number n) (.string "number")
  | string (s : String) : HasType (.string s) (.string "string")
  | tuple {items types : List Value} : List.Forall₂ PartHasType items types →
      HasType (.array items) (.array [.string "tuple", .array types])
  | object {fields types : List (String × Value)} :
      fields.map Prod.fst = types.map Prod.fst →
      List.Forall₂ PartHasType (fields.map Prod.snd) (types.map Prod.snd) →
      HasType (.object fields) (.array [.string "object", .object types])

/-- A part of a value has a type of a part: what is not known is that of null, and of nothing
else. -/
inductive PartHasType : Value → Value → Prop where
  | null : PartHasType .null (.string "dynamic")
  | typed {value type : Value} : HasType value type → PartHasType value type
end

/-! ## What is inferred -/

/-- The type of a part of a value. -/
def partType (value : Value) : Value :=
  value.inferType?.getD (.string "dynamic")

private theorem itemTypes_eq_map (items : List Value) : itemTypes items = items.map partType := by
  induction items with
  | nil => rfl
  | cons item rest ih =>
    rw [itemTypes, ih]
    rfl

private theorem fieldTypes_eq_map (fields : List (String × Value)) :
    fieldTypes fields = fields.map fun field => (field.1, partType field.2) := by
  induction fields with
  | nil => rfl
  | cons field rest ih =>
    rw [fieldTypes, ih]
    rfl

private theorem inferType?_array (items : List Value) :
    inferType? (array items) = some (array [string "tuple", array (items.map partType)]) := by
  rw [inferType?, itemTypes_eq_map]

/-- The keys of an object are in order, so its type has them in the same order. -/
private theorem inferType?_object {fields : List (String × Value)}
    (ascending : AscendingKeys fields) :
    inferType? (object fields) =
      some (array [string "object",
        object (fields.map fun field => (field.1, partType field.2))]) := by
  rw [inferType?, fieldTypes_eq_map, ofFields, sortEntries_of_ascending (ascending.map partType)]

private theorem canonical_getD {value? : Option Value} {name : String}
    (canonical : ∀ value ∈ value?, value.Canonical) : (value?.getD (string name)).Canonical := by
  cases value? with
  | none => trivial
  | some value => exact canonical value rfl

mutual
/-- The type of a value by its shape has its keys in order. -/
theorem canonical_inferType? : (value : Value) → ∀ type ∈ inferType? value, type.Canonical
  | null => nofun
  | bool _ | number _ | string _ => by
    rintro _ ⟨⟩
    trivial
  | array items => by
    rintro _ ⟨⟩
    exact ⟨trivial, canonical_itemTypes items, trivial⟩
  | object fields => by
    rintro _ ⟨⟩
    exact ⟨trivial, canonical_ofFields (canonical_fieldTypes fields), trivial⟩

private theorem canonical_itemTypes : (items : List Value) → CanonicalItems (itemTypes items)
  | [] => trivial
  | item :: rest => ⟨canonical_getD (canonical_inferType? item), canonical_itemTypes rest⟩

private theorem canonical_fieldTypes : (fields : List (String × Value)) →
    CanonicalFields (fieldTypes fields)
  | [] => trivial
  | (_, value) :: rest => ⟨canonical_getD (canonical_inferType? value), canonical_fieldTypes rest⟩
end

theorem inferType?_eq_none_iff {value : Value} : value.inferType? = none ↔ value = null := by
  cases value <;> simp [inferType?]

/-- The kind of the values of a type; only null has none. -/
def kindOf : Option Value → Kind
  | some (.string "bool") => .bool
  | some (.string "number") => .number
  | some (.string "string") => .string
  | some (.array [.string "tuple", _]) => .array
  | some (.array _) => .object
  | _ => .null

private theorem kindOf_inferType? (value : Value) : kindOf value.inferType? = value.kind := by
  cases value <;> rfl

/-- What is inferred for a part is a type of a part if what is inferred for it alone is a type. -/
private theorem isPartType_partType {value : Value}
    (sound : ∀ type, value.inferType? = some type → IsType type) : IsPartType value.partType := by
  unfold partType
  cases inferred : value.inferType? with
  | none => exact .dynamic
  | some type => exact .known (sound type inferred)

private theorem isType_of_inferType? {value type : Value} (canonical : value.Canonical)
    (inferred : value.inferType? = some type) : IsType type := by
  -- Parts are typed one by one, and a part without a type of its own is `dynamic`.
  induction value using inductionOn generalizing type with
  | null => cases inferred
  | bool b =>
    cases inferred
    exact .bool
  | number n =>
    cases inferred
    exact .number
  | string s =>
    cases inferred
    exact .string
  | array items ih =>
    rw [inferType?_array] at inferred
    cases inferred
    apply IsType.tuple
    intro type member
    obtain ⟨item, inside, rfl⟩ := List.mem_map.mp member
    apply isPartType_partType
    intro type inferred
    exact ih item inside (canonicalItems_iff.mp canonical item inside) inferred
  | object fields ih =>
    rw [inferType?_object canonical.1] at inferred
    cases inferred
    apply IsType.object (canonical.1.map partType)
    intro type member
    obtain ⟨field, inside, rfl⟩ := List.mem_map.mp member
    apply isPartType_partType
    intro type inferred
    exact ih field inside (canonical_of_mem_object canonical inside) inferred

/-- A relation that is a function on the items of a list pairs them with their images. -/
private theorem forall₂_iff_map_eq {α β : Type} {R : α → β → Prop} {f : α → β} {items : List α}
    {images : List β} (each : ∀ item ∈ items, ∀ image, R item image ↔ f item = image) :
    List.Forall₂ R items images ↔ items.map f = images := by
  induction items generalizing images with
  | nil => simp [eq_comm]
  | cons item rest ih =>
    cases images with
    | nil => simp
    | cons image others =>
      have tail : List.Forall₂ R rest others ↔ rest.map f = others :=
        ih fun other member => each other (List.mem_cons_of_mem item member)
      rw [List.forall₂_cons, each item List.mem_cons_self, tail, List.map_cons, List.cons_eq_cons]

private theorem map_pairs_eq_iff {α β γ : Type} {f : β → γ} {fields : List (α × β)}
    {types : List (α × γ)} :
    fields.map (fun field => (field.1, f field.2)) = types ↔
      fields.map Prod.fst = types.map Prod.fst ∧
        (fields.map Prod.snd).map f = types.map Prod.snd := by
  induction fields generalizing types with
  | nil => cases types <;> simp
  | cons field rest ih =>
    cases types with
    | nil => simp
    | cons type others => simp [ih, Prod.ext_iff, and_assoc, and_left_comm]

private theorem partHasType_iff {value : Value}
    (exact : ∀ type, HasType value type ↔ value.inferType? = some type) (type : Value) :
    PartHasType value type ↔ value.partType = type := by
  constructor
  · intro typed
    cases typed with
    | null => rfl
    | typed typed => rw [partType, (exact type).mp typed, Option.getD_some]
  · rintro rfl
    cases inferred : value.inferType? with
    | none =>
      obtain rfl := inferType?_eq_none_iff.mp inferred
      exact .null
    | some type =>
      rw [partType, inferred, Option.getD_some]
      exact .typed ((exact type).mpr inferred)

/-- A value has the type that is inferred from it, and no other. -/
private theorem hasType_iff {value : Value} (canonical : value.Canonical) (type : Value) :
    HasType value type ↔ value.inferType? = some type := by
  induction value using inductionOn generalizing type with
  | null => exact ⟨nofun, nofun⟩
  | bool b | number n | string s =>
    constructor
    · rintro ⟨⟩
      rfl
    · intro inferred
      cases inferred
      constructor
  | array items ih =>
    have parts : ∀ item ∈ items, ∀ type, PartHasType item type ↔ item.partType = type :=
      fun item inside =>
        partHasType_iff (ih item inside (canonicalItems_iff.mp canonical item inside))
    -- What is inferred for the parts pairs them with their types, so a judgement has no other choice.
    rw [inferType?_array, Option.some.injEq]
    constructor
    · intro typed
      cases typed with
      | tuple items => rw [(forall₂_iff_map_eq parts).mp items]
    · rintro rfl
      exact .tuple ((forall₂_iff_map_eq parts).mpr rfl)
  | object fields ih =>
    have parts : ∀ value ∈ fields.map Prod.snd, ∀ type,
        PartHasType value type ↔ value.partType = type := by
      intro value member
      obtain ⟨field, inside, rfl⟩ := List.mem_map.mp member
      exact partHasType_iff (ih field inside (canonical_of_mem_object canonical inside))
    rw [inferType?_object canonical.1, Option.some.injEq]
    constructor
    · intro typed
      cases typed with
      | object keys values =>
        rw [map_pairs_eq_iff.mpr ⟨keys, (forall₂_iff_map_eq parts).mp values⟩]
    · rintro rfl
      obtain ⟨keys, values⟩ := map_pairs_eq_iff.mp
        (rfl : fields.map (fun field => (field.1, partType field.2)) = _)
      exact .object keys ((forall₂_iff_map_eq parts).mpr values)

/-! ## Types and shapes -/

private theorem canonical_part? {value part : Value} {step : Step} (canonical : value.Canonical)
    (found : value.part? step = some part) : part.Canonical := by
  cases value with
  | array items =>
    cases step with
    | item index => exact canonicalItems_iff.mp canonical part (List.mem_of_getElem? found)
    | field name => cases found
  | object fields =>
    cases step with
    | item index => cases found
    | field name => exact canonical_of_mem_object canonical (mem_of_lookup found)
  | _ => cases step <;> cases found

/-- Ascending entries have the same images if the same images are found under every key. -/
private theorem map_fields_eq_iff {f : Value → Value} {fields others : List (String × Value)}
    (ascending : AscendingKeys fields) (ascending' : AscendingKeys others) :
    fields.map (fun field => (field.1, f field.2)) =
        others.map (fun field => (field.1, f field.2)) ↔
      ∀ name, (fields.lookup name).map f = (others.lookup name).map f := by
  constructor
  · intro same name
    rw [← lookup_map_values, same, lookup_map_values]
  · intro found
    apply eq_of_lookup_eq (ascending.map f) (ascending'.map f)
    intro name
    rw [lookup_map_values, lookup_map_values, found]

private theorem map_items_eq_iff {f : Value → Value} {items others : List Value} :
    items.map f = others.map f ↔ ∀ index : Nat, items[index]?.map f = others[index]?.map f := by
  simp only [List.ext_getElem?_iff, List.getElem?_map]

/-- The types of two values are the same if the values are of the same kind and the types of their
parts are the same. -/
theorem inferType?_eq_iff {v w : Value} (canonical : v.Canonical) (canonical' : w.Canonical) :
    v.inferType? = w.inferType? ↔
      v.kind = w.kind ∧ ∀ step, (v.part? step).map partType = (w.part? step).map partType := by
  by_cases kinds : v.kind = w.kind
  · rw [and_iff_right kinds]
    cases v <;> cases w <;> cases kinds
    case array.array.refl items others =>
      have types : inferType? (array items) = inferType? (array others) ↔
          items.map partType = others.map partType := by
        simp [inferType?_array]
      rw [types, map_items_eq_iff]
      constructor
      · rintro same (index | name)
        · exact same index
        · rfl
      · intro same index
        exact same (.item index)
    case object.object.refl fields others =>
      have types : inferType? (object fields) = inferType? (object others) ↔
          fields.map (fun field => (field.1, partType field.2)) =
            others.map (fun field => (field.1, partType field.2)) := by
        simp [inferType?_object canonical.1, inferType?_object canonical'.1]
      rw [types, map_fields_eq_iff canonical.1 canonical'.1]
      constructor
      · rintro same (index | name)
        · rfl
        · exact same name
      · intro same name
        exact same (.field name)
    -- The other kinds have no parts.
    all_goals simp [inferType?, part?]
  · have different : v.inferType? ≠ w.inferType? := by
      intro same
      apply kinds
      rw [← kindOf_inferType?, same, kindOf_inferType?]
    simp [kinds, different]

private theorem inferType?_ne_dynamic (value : Value) :
    value.inferType? ≠ some (string "dynamic") := by
  cases value <;> simp [inferType?]

theorem inferType?_ne_null (value : Value) : value.inferType? ≠ some null := by
  cases value <;> simp [inferType?]

/-- As types of parts too, types of different shapes are different: none is written as that of
null. -/
private theorem partType_eq_iff {v w : Value} :
    v.partType = w.partType ↔ v.inferType? = w.inferType? := by
  have known := inferType?_ne_dynamic v
  have known' := inferType?_ne_dynamic w
  unfold partType
  generalize v.inferType? = type at known
  generalize w.inferType? = type' at known'
  cases type <;> cases type' <;> simp_all [eq_comm]

/-- Parts that may be missing have the same type if they have the same shape. -/
private theorem map_partType_eq_iff {part other : Option Value}
    (agree : ∀ x y, part = some x → other = some y →
      (x.inferType? = y.inferType? ↔ x.SameShape y)) :
    part.map partType = other.map partType ↔
      ∀ place, (part.bind fun x => x.at? place).map kind =
        (other.bind fun y => y.at? place).map kind := by
  cases part with
  | none =>
    cases other with
    | none => simp
    | some y =>
      -- The part that is there is found at the place that it is itself.
      have found : ∃ place, none ≠ (y.at? place).map kind := ⟨[], nofun⟩
      simpa using found
  | some x =>
    cases other with
    | none =>
      have found : ∃ place, (x.at? place).map kind ≠ none := ⟨[], nofun⟩
      simpa using found
    | some y =>
      simp only [Option.map_some, Option.bind_some, Option.some.injEq, partType_eq_iff]
      exact agree x y rfl rfl

/-- A value is reached from its parts. -/
@[elab_as_elim]
private theorem inductionOnParts {motive : Value → Prop}
    (whole : ∀ value, (∀ step part, value.part? step = some part → motive part) → motive value)
    (value : Value) : motive value := by
  induction value using inductionOn with
  | array items ih =>
    apply whole
    rintro (index | name) part found
    · exact ih part (List.mem_of_getElem? found)
    · cases found
  | object fields ih =>
    apply whole
    rintro (index | name) part found
    · cases found
    · exact ih (name, part) (mem_of_lookup found)
  | _ =>
    apply whole
    rintro (index | name) part ⟨⟩

private theorem inferType?_eq_iff_sameShape {v w : Value} (canonical : v.Canonical)
    (canonical' : w.Canonical) : v.inferType? = w.inferType? ↔ v.SameShape w := by
  induction v using inductionOnParts generalizing w with
  | whole v ih =>
    rw [inferType?_eq_iff canonical canonical', sameShape_iff]
    apply and_congr_right
    intro _
    apply forall_congr'
    intro step
    apply map_partType_eq_iff
    intro x y found found'
    exact ih step x found (canonical_part? canonical found) (canonical_part? canonical' found')

/-- What is inferred from a value is its shape, and nothing else: null has no type; any other value
has the type that is inferred, and no other; and two values have the same type exactly if they have
the same shape. -/
theorem inferType?_tells_shape {v w : Value} (canonical : v.Canonical)
    (canonical' : w.Canonical) :
    (v.inferType? = none ↔ v = null) ∧
    (∀ type, v.inferType? = some type ↔ IsType type ∧ HasType v type) ∧
    (v.inferType? = w.inferType? ↔ v.SameShape w) := by
  refine ⟨inferType?_eq_none_iff, ?_, inferType?_eq_iff_sameShape canonical canonical'⟩
  intro type
  rw [hasType_iff canonical]
  constructor
  · intro inferred
    exact ⟨isType_of_inferType? canonical inferred, inferred⟩
  · exact And.right

/-- An address with ports, of which the second one is not known. -/
def endpoint (host : String) (port : Whole) : Value :=
  object [("host", string host), ("ports", array [number (.whole port), null])]

def endpointType : Value :=
  array [string "object", object
    [("host", string "string"),
      ("ports", array [string "tuple", array [string "number", string "dynamic"]])]]

theorem inferType?_tells_shape_endpoint :
    ((endpoint "10.0.0.1" ⟨443, by decide⟩).Canonical ∧
      (endpoint "" ⟨-1, by decide⟩).Canonical) ∧
    IsType endpointType ∧ HasType (endpoint "10.0.0.1" ⟨443, by decide⟩) endpointType ∧
    SameShape (endpoint "10.0.0.1" ⟨443, by decide⟩) (endpoint "" ⟨-1, by decide⟩) := by
  have ordered : "host" < "ports" := by decide
  have canonical (host : String) (port : Whole) : (endpoint host port).Canonical :=
    ⟨List.pairwise_pair.mpr ordered, trivial, ⟨trivial, trivial, trivial⟩, trivial⟩
  have inferred (host : String) (port : Whole) :
      (endpoint host port).inferType? = some endpointType :=
    inferType?_object (canonical host port).1
  obtain ⟨-, typed, shaped⟩ := inferType?_tells_shape
    (canonical "10.0.0.1" ⟨443, by decide⟩) (canonical "" ⟨-1, by decide⟩)
  obtain ⟨isType, hasType⟩ := (typed endpointType).mp (inferred _ _)
  exact ⟨⟨canonical _ _, canonical _ _⟩, isType, hasType,
    shaped.mp ((inferred _ _).trans (inferred _ _).symm)⟩

end Blueprint.Value
