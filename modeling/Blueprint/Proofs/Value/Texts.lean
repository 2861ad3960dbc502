import Blueprint.Proofs.Value

/-!
# Texts in values

What holds of every key and every text inside a value (`Value.Texts`), and a value with other texts
in the same places (`Value.mapTexts`). The keys of a value stay as they are, and so does its shape.
-/

namespace Blueprint

namespace Value

mutual
/-- Every key and every text inside a value is of a kind. -/
def Texts (isKey isText : String → Prop) : Value → Prop
  | null | bool _ | number _ => True
  | string s => isText s
  | array items => TextsItems isKey isText items
  | object fields => TextsFields isKey isText fields

def TextsItems (isKey isText : String → Prop) : List Value → Prop
  | [] => True
  | item :: rest => item.Texts isKey isText ∧ TextsItems isKey isText rest

def TextsFields (isKey isText : String → Prop) : List (String × Value) → Prop
  | [] => True
  | (key, value) :: rest => isKey key ∧ value.Texts isKey isText ∧ TextsFields isKey isText rest
end

section Decidable

variable {isKey isText : String → Prop} [DecidablePred isKey] [DecidablePred isText]

mutual
/-- The kinds of keys and texts in a value are decided by recursion. -/
def decTexts : (value : Value) → Decidable (value.Texts isKey isText)
  | null | bool _ | number _ => isTrue trivial
  | string s => inferInstanceAs (Decidable (isText s))
  | array items => decTextsItems items
  | object fields => decTextsFields fields

def decTextsItems : (items : List Value) → Decidable (TextsItems isKey isText items)
  | [] => isTrue trivial
  | item :: rest => @instDecidableAnd _ _ (decTexts item) (decTextsItems rest)

def decTextsFields : (fields : List (String × Value)) → Decidable (TextsFields isKey isText fields)
  | [] => isTrue trivial
  | (_, value) :: rest =>
    @instDecidableAnd _ _ inferInstance (@instDecidableAnd _ _ (decTexts value) (decTextsFields rest))
end

instance (value : Value) : Decidable (value.Texts isKey isText) := decTexts value

end Decidable

section Kinds

variable {isKey isText isKey' isText' : String → Prop}

mutual
/-- All keys and texts are of two kinds at once. -/
theorem texts_and_iff : (value : Value) →
    (value.Texts (fun s => isKey s ∧ isKey' s) (fun s => isText s ∧ isText' s) ↔
      value.Texts isKey isText ∧ value.Texts isKey' isText')
  | null | bool _ | number _ => and_self_iff.symm
  | string _ => Iff.rfl
  | array items => textsItems_and_iff items
  | object fields => textsFields_and_iff fields

private theorem textsItems_and_iff : (items : List Value) →
    (TextsItems (fun s => isKey s ∧ isKey' s) (fun s => isText s ∧ isText' s) items ↔
      TextsItems isKey isText items ∧ TextsItems isKey' isText' items)
  | [] => and_self_iff.symm
  | item :: rest => by
    simp only [TextsItems, texts_and_iff item, textsItems_and_iff rest]
    exact and_and_and_comm

private theorem textsFields_and_iff : (fields : List (String × Value)) →
    (TextsFields (fun s => isKey s ∧ isKey' s) (fun s => isText s ∧ isText' s) fields ↔
      TextsFields isKey isText fields ∧ TextsFields isKey' isText' fields)
  | [] => and_self_iff.symm
  | (_, value) :: rest => by
    simp only [TextsFields, texts_and_iff value, textsFields_and_iff rest]
    tauto
end

end Kinds

/-! ## Other texts -/

mutual
/-- The value with another text in the place of each one. -/
def mapTexts (f : String → String) : Value → Value
  | null => null
  | bool b => bool b
  | number n => number n
  | string s => string (f s)
  | array items => array (mapTextsItems f items)
  | object fields => object (mapTextsFields f fields)

def mapTextsItems (f : String → String) : List Value → List Value
  | [] => []
  | item :: rest => item.mapTexts f :: mapTextsItems f rest

def mapTextsFields (f : String → String) : List (String × Value) → List (String × Value)
  | [] => []
  | (key, value) :: rest => (key, value.mapTexts f) :: mapTextsFields f rest
end

section MapTexts

variable {f : String → String}

mutual
/-- A value stays as it is if its texts do. -/
theorem mapTexts_eq_self_iff : (value : Value) →
    (value.mapTexts f = value ↔ value.Texts (fun _ => True) (fun s => f s = s))
  | null | bool _ | number _ => iff_of_true rfl trivial
  | string s => by simp only [mapTexts, Texts, string.injEq]
  | array items => by
    simp only [mapTexts, Texts, array.injEq]
    exact mapTextsItems_eq_self_iff items
  | object fields => by
    simp only [mapTexts, Texts, object.injEq]
    exact mapTextsFields_eq_self_iff fields

private theorem mapTextsItems_eq_self_iff : (items : List Value) →
    (mapTextsItems f items = items ↔ TextsItems (fun _ => True) (fun s => f s = s) items)
  | [] => iff_of_true rfl trivial
  | item :: rest => by
    simp only [mapTextsItems, TextsItems, List.cons.injEq, mapTexts_eq_self_iff item,
      mapTextsItems_eq_self_iff rest]

private theorem mapTextsFields_eq_self_iff : (fields : List (String × Value)) →
    (mapTextsFields f fields = fields ↔ TextsFields (fun _ => True) (fun s => f s = s) fields)
  | [] => iff_of_true rfl trivial
  | (key, value) :: rest => by
    simp only [mapTextsFields, TextsFields, List.cons.injEq, Prod.mk.injEq, true_and,
      mapTexts_eq_self_iff value, mapTextsFields_eq_self_iff rest]
end

mutual
theorem nesting_mapTexts : (value : Value) → (value.mapTexts f).nesting = value.nesting
  | null | bool _ | number _ | string _ => rfl
  | array items => congrArg (· + 1) (nesting_mapTextsItems items)
  | object fields => congrArg (· + 1) (nesting_mapTextsFields fields)

private theorem nesting_mapTextsItems : (items : List Value) →
    nestingItems (mapTextsItems f items) = nestingItems items
  | [] => rfl
  | item :: rest => congrArg₂ max (nesting_mapTexts item) (nesting_mapTextsItems rest)

private theorem nesting_mapTextsFields : (fields : List (String × Value)) →
    nestingFields (mapTextsFields f fields) = nestingFields fields
  | [] => rfl
  | (_, value) :: rest => congrArg₂ max (nesting_mapTexts value) (nesting_mapTextsFields rest)
end

mutual
theorem floatFree_mapTexts : (value : Value) → ((value.mapTexts f).FloatFree ↔ value.FloatFree)
  | null | bool _ | string _ | number (.whole _) | number (.real _) => Iff.rfl
  | array items => floatFree_mapTextsItems items
  | object fields => floatFree_mapTextsFields fields

private theorem floatFree_mapTextsItems : (items : List Value) →
    (FloatFreeItems (mapTextsItems f items) ↔ FloatFreeItems items)
  | [] => Iff.rfl
  | item :: rest => and_congr (floatFree_mapTexts item) (floatFree_mapTextsItems rest)

private theorem floatFree_mapTextsFields : (fields : List (String × Value)) →
    (FloatFreeFields (mapTextsFields f fields) ↔ FloatFreeFields fields)
  | [] => Iff.rfl
  | (_, value) :: rest => and_congr (floatFree_mapTexts value) (floatFree_mapTextsFields rest)
end

private theorem keys_mapTextsFields (fields : List (String × Value)) :
    (mapTextsFields f fields).map Prod.fst = fields.map Prod.fst := by
  induction fields with
  | nil => rfl
  | cons field rest ih => exact congrArg (field.1 :: ·) ih

private theorem ascendingKeys_mapTextsFields {fields : List (String × Value)} :
    AscendingKeys (mapTextsFields f fields) ↔ AscendingKeys fields := by
  have keys (entries : List (String × Value)) :
      AscendingKeys entries ↔ (entries.map Prod.fst).Pairwise (· < ·) :=
    List.pairwise_map.symm
  rw [keys, keys, keys_mapTextsFields]

mutual
theorem canonical_mapTexts : (value : Value) → ((value.mapTexts f).Canonical ↔ value.Canonical)
  | null | bool _ | number _ | string _ => Iff.rfl
  | array items => canonical_mapTextsItems items
  | object fields => and_congr ascendingKeys_mapTextsFields (canonical_mapTextsFields fields)

private theorem canonical_mapTextsItems : (items : List Value) →
    (CanonicalItems (mapTextsItems f items) ↔ CanonicalItems items)
  | [] => Iff.rfl
  | item :: rest => and_congr (canonical_mapTexts item) (canonical_mapTextsItems rest)

private theorem canonical_mapTextsFields : (fields : List (String × Value)) →
    (CanonicalFields (mapTextsFields f fields) ↔ CanonicalFields fields)
  | [] => Iff.rfl
  | (_, value) :: rest => and_congr (canonical_mapTexts value) (canonical_mapTextsFields rest)
end

end MapTexts

end Value
end Blueprint
