import Blueprint.Number
import Blueprint.SortedMap

/-!
# Dynamic values

The values that a document carries without a fixed shape: defaults of variables and recorded types.
Objects keep their fields in ascending order of keys, each key once; `Value.ofFields` builds such an
object from fields in any order and `Value.Canonical` says that a value was built that way.
-/

namespace Blueprint

inductive Value where
  | null
  | bool (b : Bool)
  | number (n : Number)
  | string (s : String)
  | array (items : List Value)
  | object (fields : List (String × Value))
deriving Repr

namespace Value

instance : Inhabited Value := ⟨null⟩

mutual
/-- Equality of values is decided by recursion on both. -/
def decEq : (a b : Value) → Decidable (a = b)
  | null, null => isTrue rfl
  | bool a, bool b => if h : a = b then isTrue (by rw [h]) else isFalse (by simpa using h)
  | number a, number b => if h : a = b then isTrue (by rw [h]) else isFalse (by simpa using h)
  | string a, string b => if h : a = b then isTrue (by rw [h]) else isFalse (by simpa using h)
  | array a, array b =>
    match decEqItems a b with
    | isTrue h => isTrue (by rw [h])
    | isFalse h => isFalse (by simpa using h)
  | object a, object b =>
    match decEqFields a b with
    | isTrue h => isTrue (by rw [h])
    | isFalse h => isFalse (by simpa using h)
  | null, bool _ | null, number _ | null, string _ | null, array _ | null, object _
  | bool _, null | bool _, number _ | bool _, string _ | bool _, array _ | bool _, object _
  | number _, null | number _, bool _ | number _, string _ | number _, array _
  | number _, object _
  | string _, null | string _, bool _ | string _, number _ | string _, array _
  | string _, object _
  | array _, null | array _, bool _ | array _, number _ | array _, string _ | array _, object _
  | object _, null | object _, bool _ | object _, number _ | object _, string _
  | object _, array _ => isFalse (by simp)

def decEqItems : (a b : List Value) → Decidable (a = b)
  | [], [] => isTrue rfl
  | [], _ :: _ => isFalse (by simp)
  | _ :: _, [] => isFalse (by simp)
  | a :: as, b :: bs =>
    match decEq a b, decEqItems as bs with
    | isTrue h, isTrue hs => isTrue (by rw [h, hs])
    | isFalse h, _ => isFalse (by simp [h])
    | _, isFalse h => isFalse (by simp [h])

def decEqFields : (a b : List (String × Value)) → Decidable (a = b)
  | [], [] => isTrue rfl
  | [], _ :: _ => isFalse (by simp)
  | _ :: _, [] => isFalse (by simp)
  | (k, a) :: as, (l, b) :: bs =>
    if same : k = l then
      match decEq a b, decEqFields as bs with
      | isTrue h, isTrue hs => isTrue (by rw [h, hs, same])
      | isFalse h, _ => isFalse (by simp [h])
      | _, isFalse h => isFalse (by simp [h])
    else isFalse (by simp [same])
end

instance : DecidableEq Value := decEq

def isNull : Value → Bool
  | null => true
  | _ => false

/-- The object with the given fields; the last field of a key counts. -/
def ofFields (fields : List (String × Value)) : Value :=
  object (sortEntries fields)

/-- The value of a field of an object. -/
def field? (name : String) : Value → Option Value
  | object fields => fields.lookup name
  | _ => none

mutual
/-- Every object inside has its keys in strictly ascending order. -/
def Canonical : Value → Prop
  | null | bool _ | number _ | string _ => True
  | array items => CanonicalItems items
  | object fields => AscendingKeys fields ∧ CanonicalFields fields

def CanonicalItems : List Value → Prop
  | [] => True
  | item :: rest => item.Canonical ∧ CanonicalItems rest

def CanonicalFields : List (String × Value) → Prop
  | [] => True
  | (_, value) :: rest => value.Canonical ∧ CanonicalFields rest
end

end Value
end Blueprint
