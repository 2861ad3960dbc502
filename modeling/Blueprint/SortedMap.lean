/-!
# Maps in ascending order of keys

Finite maps, kept as a list of entries whose keys strictly ascend. `insertEntry` works on the bare
list, for keys of any ordered type and for types that cannot hold the order themselves; `SortedMap`
is a map from text that holds it. Looking up what was inserted gives the value back, and no other
key notices.
-/

namespace Blueprint

variable {κ α : Type} [DecidableEq κ]

/-- The first entry is found under its key, and every other key behind it. -/
theorem lookup_cons_eq_ite (key name : κ) (value : α) (rest : List (κ × α)) :
    ((key, value) :: rest).lookup name = if name = key then some value else rest.lookup name := by
  by_cases found : name = key
  · simp [found]
  · simp [List.lookup_cons, beq_false_of_ne found, found]

variable [LT κ] [DecidableLT κ]

/-- Keys strictly ascend, so each key occurs once. -/
def AscendingKeys (entries : List (κ × α)) : Prop :=
  entries.Pairwise fun a b => a.1 < b.1

instance (entries : List (κ × α)) : Decidable (AscendingKeys entries) :=
  inferInstanceAs (Decidable (entries.Pairwise _))

/-- Puts an entry into ascending entries; an entry of the same key is replaced. -/
def insertEntry (key : κ) (value : α) : List (κ × α) → List (κ × α)
  | [] => [(key, value)]
  | (k, v) :: rest =>
    if key < k then (key, value) :: (k, v) :: rest
    else if k = key then (key, value) :: rest
    else (k, v) :: insertEntry key value rest

/-- The ascending entries with the given contents; the last entry of a key counts. -/
def sortEntries (entries : List (κ × α)) : List (κ × α) :=
  entries.foldl (fun sorted entry => insertEntry entry.1 entry.2 sorted) []

theorem mem_insertEntry {key : κ} {value : α} {entries : List (κ × α)}
    {entry : κ × α} (member : entry ∈ insertEntry key value entries) :
    entry = (key, value) ∨ entry ∈ entries := by
  induction entries with
  | nil => simpa [insertEntry] using member
  | cons head rest ih =>
    simp only [insertEntry] at member
    split at member
    · simpa using member
    · split at member <;> grind

/-- A key that was put in is found with its value, and every other key as before. -/
theorem lookup_insertEntry (key name : κ) (value : α) (entries : List (κ × α)) :
    (insertEntry key value entries).lookup name =
      if name = key then some value else entries.lookup name := by
  induction entries with
  | nil => simp [insertEntry, lookup_cons_eq_ite]
  | cons head rest ih =>
    obtain ⟨k, v⟩ := head
    simp only [insertEntry]
    split
    · simp [lookup_cons_eq_ite]
    · split
      · rename_i same
        subst same
        simp only [lookup_cons_eq_ite]
        split <;> rfl
      · rename_i different
        simp only [lookup_cons_eq_ite, ih]
        by_cases found : name = k
        · subst found
          simp [different]
        · simp [found]

theorem length_insertEntry {key : κ} {value : α} {entries : List (κ × α)}
    (absent : entries.lookup key = none) :
    (insertEntry key value entries).length = entries.length + 1 := by
  induction entries with
  | nil => rfl
  | cons head rest ih =>
    obtain ⟨k, v⟩ := head
    have other : key ≠ k := by
      rintro rfl
      simp at absent
    have later : rest.lookup key = none := by
      simpa [List.lookup_cons, beq_false_of_ne other] using absent
    simp only [insertEntry, if_neg (Ne.symm other)]
    split
    · rfl
    · simp [ih later]

section Ordered

variable [LE κ] [Std.IsLinearOrder κ] [Std.LawfulOrderLT κ]

/-- Ascending order of keys is kept by putting an entry in. -/
theorem ascendingKeys_insertEntry (key : κ) (value : α) {entries : List (κ × α)}
    (ascending : AscendingKeys entries) : AscendingKeys (insertEntry key value entries) := by
  induction entries with
  | nil => simp [insertEntry, AscendingKeys]
  | cons head rest ih =>
    obtain ⟨k, v⟩ := head
    simp only [AscendingKeys, List.pairwise_cons] at ascending
    simp only [insertEntry]
    split
    · rename_i less
      simp only [AscendingKeys, List.pairwise_cons, List.mem_cons, forall_eq_or_imp]
      exact ⟨⟨less, fun f hf => Std.lt_trans less (ascending.1 f hf)⟩, ascending⟩
    · split
      · rename_i same
        subst same
        simpa [AscendingKeys, List.pairwise_cons] using ascending
      · rename_i notLess notSame
        simp only [AscendingKeys, List.pairwise_cons]
        refine ⟨fun f hf => ?_, ih ascending.2⟩
        rcases mem_insertEntry hf with rfl | old
        · exact Std.lt_of_le_of_ne (Std.not_lt.1 notLess) notSame
        · exact ascending.1 f old

theorem ascendingKeys_foldl_insertEntry (entries : List (κ × α)) {sorted : List (κ × α)}
    (ascending : AscendingKeys sorted) :
    AscendingKeys (entries.foldl (fun sorted entry => insertEntry entry.1 entry.2 sorted) sorted) := by
  induction entries generalizing sorted with
  | nil => exact ascending
  | cons head rest ih => exact ih (ascendingKeys_insertEntry head.1 head.2 ascending)

theorem ascendingKeys_sortEntries (entries : List (κ × α)) :
    AscendingKeys (sortEntries entries) :=
  ascendingKeys_foldl_insertEntry entries .nil

end Ordered

/-- A finite map from text whose keys ascend. -/
structure SortedMap (α : Type) where
  entries : List (String × α)
  ascending : AscendingKeys entries
deriving DecidableEq, Repr

namespace SortedMap

def empty : SortedMap α := ⟨[], .nil⟩

instance : Inhabited (SortedMap α) := ⟨empty⟩
instance : EmptyCollection (SortedMap α) := ⟨empty⟩

/-- The map with one more entry; an entry of the same key is replaced. -/
def insert (map : SortedMap α) (key : String) (value : α) : SortedMap α :=
  ⟨insertEntry key value map.entries, ascendingKeys_insertEntry key value map.ascending⟩

/-- The map of a list of entries; the last entry of a key counts. -/
def ofList (entries : List (String × α)) : SortedMap α :=
  ⟨sortEntries entries, ascendingKeys_sortEntries entries⟩

def get? (map : SortedMap α) (key : String) : Option α :=
  map.entries.lookup key

def contains (map : SortedMap α) (key : String) : Bool :=
  (map.get? key).isSome

def isEmpty (map : SortedMap α) : Bool :=
  map.entries.isEmpty

def size (map : SortedMap α) : Nat :=
  map.entries.length

@[simp] theorem get?_empty (key : String) : (empty : SortedMap α).get? key = none := rfl

@[simp] theorem get?_insert (map : SortedMap α) (key name : String) (value : α) :
    (map.insert key value).get? name = if name = key then some value else map.get? name :=
  lookup_insertEntry key name value map.entries

theorem contains_insert {map : SortedMap α} {key name : String} {value : α} :
    (map.insert key value).contains name = true ↔ name = key ∨ map.contains name = true := by
  by_cases same : name = key <;> simp [contains, same]

/-- A new key makes a map one entry larger. -/
theorem size_insert {map : SortedMap α} {key : String} (value : α)
    (absent : map.get? key = none) : (map.insert key value).size = map.size + 1 :=
  length_insertEntry absent

end SortedMap
end Blueprint
