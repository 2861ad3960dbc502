import Blueprint.SortedMap
import Mathlib.Data.List.Nodup

/-!
# Entries under distinct keys

Where no key is repeated, looking a key up is the same as being among the entries, and sorting only
moves entries. Ascending entries are in order already (`sortEntries_of_ascending`), so they are told
by what is found under each key (`eq_of_lookup_eq`) and by their contents in any order
(`sortEntries_of_perm`).
-/

namespace Blueprint

variable {α : Type}

/-! ## Looking up -/

theorem lookup_eq_none_of_fresh {key : String} {entries : List (String × α)}
    (fresh : key ∉ entries.map Prod.fst) : entries.lookup key = none := by
  rw [List.lookup_eq_none_iff]
  intro entry member
  have named : entry.1 ∈ entries.map Prod.fst := List.mem_map_of_mem member
  exact bne_iff_ne.mpr fun (same : key = entry.1) => fresh (same ▸ named)

theorem mem_of_lookup {key : String} {value : α} {entries : List (String × α)}
    (found : entries.lookup key = some value) : (key, value) ∈ entries := by
  obtain ⟨before, after, rfl, -⟩ := List.lookup_eq_some_iff.mp found
  simp

/-- An entry is found under its key if no other entry has that key. -/
private theorem lookup_of_mem {key : String} {value : α} {entries : List (String × α)}
    (distinct : (entries.map Prod.fst).Nodup) (member : (key, value) ∈ entries) :
    entries.lookup key = some value := by
  induction entries with
  | nil => cases member
  | cons head rest ih =>
    obtain ⟨first, other⟩ := head
    obtain ⟨fresh, distinct⟩ := List.nodup_cons.mp distinct
    rw [lookup_cons_eq_ite]
    rcases List.mem_cons.mp member with same | behind
    · cases same
      simp
    · have different : key ≠ first := by
        rintro rfl
        exact fresh (List.mem_map.mpr ⟨(key, value), behind, rfl⟩)
      rw [if_neg different]
      exact ih distinct behind

private theorem lookup_eq_some_iff_mem {key : String} {value : α} {entries : List (String × α)}
    (distinct : (entries.map Prod.fst).Nodup) :
    entries.lookup key = some value ↔ (key, value) ∈ entries :=
  ⟨mem_of_lookup, lookup_of_mem distinct⟩

/-- Under a key the image of what was there is found. -/
theorem lookup_map_values {β : Type} (f : α → β) (key : String) (entries : List (String × α)) :
    (entries.map fun entry => (entry.1, f entry.2)).lookup key = (entries.lookup key).map f := by
  induction entries with
  | nil => rfl
  | cons head rest ih =>
    rw [List.map_cons, lookup_cons_eq_ite, lookup_cons_eq_ite, ih]
    split <;> rfl

/-- Under a key of which there is one entry, what was made of that is found. -/
theorem lookup_filterMap_values {β : Type} (f : α → Option β) (key : String)
    {entries : List (String × α)} (distinct : (entries.map Prod.fst).Nodup) :
    (entries.filterMap fun entry => (f entry.2).map fun image => (entry.1, image)).lookup key =
      (entries.lookup key).bind f := by
  induction entries with
  | nil => rfl
  | cons head rest ih =>
    obtain ⟨first, value⟩ := head
    obtain ⟨fresh, distinct⟩ := List.nodup_cons.mp distinct
    have later := ih distinct
    rw [lookup_cons_eq_ite]
    -- The entry for the key may give no image; then there must not be another one behind it.
    by_cases same : key = first
    · subst same
      rw [lookup_eq_none_of_fresh fresh] at later
      cases image : f value with
      | none => simpa [image] using later
      | some image' => simp [image]
    · cases image : f value with
      | none => simpa [image, same] using later
      | some image' => simpa [image, lookup_cons_eq_ite, same] using later

/-- Of the trees of entries with different keys, at most one answers to a name. -/
theorem filter_map_entries {β : Type} {entries : List (String × α)} {treeOf : String × α → β}
    {asked : β → Bool} {name : String} (distinct : (entries.map Prod.fst).Nodup)
    (answers : ∀ entry, asked (treeOf entry) = (some entry.1 == some name)) :
    (entries.map treeOf).filter asked =
      ((entries.lookup name).map fun value => treeOf (name, value)).toList := by
  induction entries with
  | nil => rfl
  | cons head rest ih =>
    obtain ⟨first, value⟩ := head
    obtain ⟨fresh, othersDistinct⟩ := List.nodup_cons.mp distinct
    rw [List.map_cons, List.filter_cons, ih othersDistinct, answers]
    by_cases same : name = first
    · subst same
      simp [lookup_eq_none_of_fresh fresh]
    · simp [List.lookup_cons, beq_false_of_ne same, Ne.symm same]

/-! ## Sorting -/

private theorem insertEntry_append {key : String} {value : α} {sorted : List (String × α)}
    (above : ∀ entry ∈ sorted, entry.1 < key) :
    insertEntry key value sorted = sorted ++ [(key, value)] := by
  induction sorted with
  | nil => rfl
  | cons head rest ih =>
    have less : head.1 < key := above head (by simp)
    have notLess : ¬key < head.1 := String.lt_asymm less
    have different : head.1 ≠ key := fun same => String.lt_irrefl key (same ▸ less)
    rw [insertEntry, if_neg notLess, if_neg different,
      ih fun entry member => above entry (List.mem_cons_of_mem head member)]
    rfl

/-- Ascending entries are in order already. -/
theorem sortEntries_of_ascending {entries : List (String × α)} (ascending : AscendingKeys entries) :
    sortEntries entries = entries := by
  -- The entries behind the ones that were put in already are all greater than these.
  have behind (rest sorted : List (String × α)) (ascending : AscendingKeys (sorted ++ rest)) :
      rest.foldl (fun sorted entry => insertEntry entry.1 entry.2 sorted) sorted =
        sorted ++ rest := by
    induction rest generalizing sorted with
    | nil => simp
    | cons head rest ih =>
      have above : ∀ entry ∈ sorted, entry.1 < head.1 := fun entry member =>
        (List.pairwise_append.mp ascending).2.2 entry member head (by simp)
      rw [List.foldl_cons, insertEntry_append above, ih _ (by simpa using ascending)]
      simp
  exact behind entries [] ascending

/-- Sorting puts in no entries of its own. -/
theorem mem_of_mem_sortEntries {entries : List (String × α)} {entry : String × α}
    (member : entry ∈ sortEntries entries) : entry ∈ entries := by
  have put (rest sorted : List (String × α))
      (member : entry ∈ rest.foldl (fun sorted entry => insertEntry entry.1 entry.2 sorted) sorted) :
      entry ∈ rest ∨ entry ∈ sorted := by
    induction rest generalizing sorted with
    | nil => exact .inr member
    | cons head rest ih =>
      rcases ih _ member with behind | before
      · exact .inl (List.mem_cons_of_mem head behind)
      · rcases mem_insertEntry before with rfl | before
        · exact .inl List.mem_cons_self
        · exact .inr before
  exact (put entries [] member).resolve_right List.not_mem_nil

/-- A new key is put between the others, which stay. -/
private theorem perm_insertEntry {key : String} (value : α) {entries : List (String × α)}
    (fresh : key ∉ entries.map Prod.fst) :
    (insertEntry key value entries).Perm ((key, value) :: entries) := by
  induction entries with
  | nil => exact .refl _
  | cons head rest ih =>
    obtain ⟨different, later⟩ : key ≠ head.1 ∧ key ∉ rest.map Prod.fst := by simpa using fresh
    rw [insertEntry]
    split
    · exact .refl _
    · rw [if_neg different.symm]
      exact ((ih later).cons head).trans (.swap _ _ rest)

/-- Entries with distinct keys are only moved. -/
private theorem perm_sortEntries {entries : List (String × α)}
    (distinct : (entries.map Prod.fst).Nodup) :
    (sortEntries entries).Perm entries := by
  have put (rest sorted : List (String × α)) (distinct : ((rest ++ sorted).map Prod.fst).Nodup) :
      (rest.foldl (fun sorted entry => insertEntry entry.1 entry.2 sorted) sorted).Perm
        (rest ++ sorted) := by
    induction rest generalizing sorted with
    | nil => exact .refl sorted
    | cons head rest ih =>
      obtain ⟨fresh, others⟩ := List.nodup_cons.mp distinct
      have moved : (rest ++ insertEntry head.1 head.2 sorted).Perm (head :: (rest ++ sorted)) :=
        ((perm_insertEntry head.2 (by simp_all)).append_left rest).trans List.perm_middle
      apply (ih _ ?_).trans moved
      exact (moved.map Prod.fst).nodup_iff.mpr distinct
  have sorted := put entries [] (by simpa using distinct)
  rwa [List.append_nil] at sorted

theorem AscendingKeys.distinct {entries : List (String × α)} (ascending : AscendingKeys entries) :
    (entries.map Prod.fst).Nodup := by
  apply List.pairwise_map.mpr
  apply List.Pairwise.imp _ ascending
  intro entry other below same
  exact String.lt_irrefl _ (same ▸ below)

theorem AscendingKeys.map {β : Type} (f : α → β) {entries : List (String × α)}
    (ascending : AscendingKeys entries) :
    AscendingKeys (entries.map fun entry => (entry.1, f entry.2)) :=
  List.pairwise_map.mpr ascending

theorem AscendingKeys.filterMap {β : Type} (f : α → Option β) {entries : List (String × α)}
    (ascending : AscendingKeys entries) :
    AscendingKeys (entries.filterMap fun entry =>
      (f entry.2).map fun image => (entry.1, image)) := by
  apply List.Pairwise.filterMap _ _ ascending
  intro entry other below image made image' made'
  obtain ⟨_, -, rfl⟩ := Option.map_eq_some_iff.mp made
  obtain ⟨_, -, rfl⟩ := Option.map_eq_some_iff.mp made'
  exact below

/-- The same entries can ascend in one order only. -/
private theorem AscendingKeys.eq_of_perm {entries others : List (String × α)}
    (ascending : AscendingKeys entries) (ascending' : AscendingKeys others)
    (perm : entries.Perm others) : entries = others :=
  perm.eq_of_pairwise (fun _ _ _ _ below above => absurd above (String.lt_asymm below)) ascending
    ascending'

/-- Entries are sorted into the ascending entries that have the same contents. -/
theorem sortEntries_of_perm {entries sorted : List (String × α)} (perm : entries.Perm sorted)
    (ascending : AscendingKeys sorted) : sortEntries entries = sorted := by
  have distinct : (entries.map Prod.fst).Nodup :=
    (perm.map Prod.fst).nodup_iff.mpr ascending.distinct
  exact (ascendingKeys_sortEntries entries).eq_of_perm ascending
    ((perm_sortEntries distinct).trans perm)

/-- Ascending entries are the same if the same is found under every key. -/
theorem eq_of_lookup_eq {entries others : List (String × α)} (ascending : AscendingKeys entries)
    (ascending' : AscendingKeys others)
    (same : ∀ key, entries.lookup key = others.lookup key) : entries = others := by
  apply ascending.eq_of_perm ascending'
  rw [List.perm_ext_iff_of_nodup ascending.distinct.of_map ascending'.distinct.of_map]
  rintro ⟨key, value⟩
  rw [← lookup_eq_some_iff_mem ascending.distinct, ← lookup_eq_some_iff_mem ascending'.distinct,
    same]

theorem SortedMap.ofList_entries (map : SortedMap α) : SortedMap.ofList map.entries = map := by
  cases map with
  | mk entries ascending => simp [SortedMap.ofList, sortEntries_of_ascending ascending]

end Blueprint
