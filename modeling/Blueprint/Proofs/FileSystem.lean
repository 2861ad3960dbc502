import Blueprint.FileSystem
import Blueprint.Proofs.Results

/-!
# What a write changes

A place is seen as what it holds: a file with its contents, a directory, or nothing. Writing a file
changes what one place holds, which is a file from then on, and no path that was followed before
leads astray. So a file that was written is read with its new contents, and every other place is as
it was (`FileSystem.Written`).
-/

namespace Blueprint

/-- What a place holds: a file with its contents, or a directory. -/
inductive Held where
  | file (bytes : ByteArray)
  | directory

namespace Tree

def held : Tree → Held
  | file bytes => .file bytes
  | directory _ => .directory

/-- What the place that names lead to holds, if there is anything. -/
def heldAt? (tree : Tree) (place : List FileName) : Option Held :=
  (tree.at? place).map held

@[simp] theorem heldAt?_nil (tree : Tree) : tree.heldAt? [] = some tree.held := rfl

private theorem heldAt?_cons (tree : Tree) (name : FileName) (names : List FileName) :
    tree.heldAt? (name :: names) = (tree.child? name).bind fun child => child.heldAt? names := by
  simp only [heldAt?, at?]
  cases tree.child? name <;> rfl

theorem at?_append (tree : Tree) (above below : List FileName) :
    tree.at? (above ++ below) = (tree.at? above).bind fun inner => inner.at? below := by
  induction above generalizing tree with
  | nil => rfl
  | cons name names ih =>
    simp only [List.cons_append, at?]
    cases tree.child? name with
    | none => rfl
    | some child => exact ih child

/-- What a directory has under a name. -/
private theorem heldAt?_below {tree : Tree} {place : List FileName}
    {entries : List (FileName × Tree)}
    (here : tree.at? place = some (.directory entries)) (name : FileName) :
    tree.heldAt? (place ++ [name]) = (entries.lookup name).map Tree.held := by
  simp only [heldAt?, at?_append, here, Option.bind_some, at?, child?, Tree.entries]
  cases entries.lookup name <;> rfl

/-- Above a place that holds something are places that hold something. -/
private theorem isSome_heldAt?_dropLast {tree : Tree} {place : List FileName}
    (there : (tree.heldAt? place).isSome) : (tree.heldAt? place.dropLast).isSome := by
  rcases List.eq_nil_or_concat place with rfl | ⟨above, name, rfl⟩
  · exact there
  · rw [List.concat_eq_append] at there ⊢
    rw [List.dropLast_concat]
    cases found : tree.at? above with
    | none => simp [heldAt?, at?_append, found] at there
    | some inner => simp [heldAt?, found]

@[simp] theorem child?_put (content tree : Tree) (name other : FileName) (names : List FileName) :
    (put content (name :: names) tree).child? other =
      if other = name then some (put content names ((tree.child? name).getD (directory [])))
      else tree.child? other :=
  lookup_insertEntry name other _ tree.entries

/-- What was put at a place is there. -/
private theorem at?_put (content tree : Tree) (place : List FileName) :
    (put content place tree).at? place = some content := by
  induction place generalizing tree with
  | nil => rfl
  | cons name names ih => simp only [at?, child?_put, if_true, Option.bind_some, ih]

/-- Only directories have anything below them. -/
private theorem heldAt?_cons_of_ne_directory {tree : Tree} (isFile : tree.held ≠ .directory)
    (name : FileName) (names : List FileName) : tree.heldAt? (name :: names) = none := by
  cases tree with
  | directory entries => exact absurd rfl isFile
  | file bytes => simp [heldAt?_cons, child?, entries]

/-- A file that is put into a directory, where no directory has its name, is the only change. -/
private theorem heldAt?_put_of_ne {tree : Tree} {above : List FileName} {name : FileName}
    {bytes : ByteArray}
    (inside : tree.heldAt? above = some .directory)
    (free : tree.heldAt? (above ++ [name]) ≠ some .directory)
    {other : List FileName} (different : other ≠ above ++ [name]) :
    (put (.file bytes) (above ++ [name]) tree).heldAt? other = tree.heldAt? other := by
  -- Down the directory that the file is put into. A place that leaves its path is not touched,
  -- and one that follows it is another place below.
  induction above generalizing tree other with
  | nil =>
    cases other with
    | nil => exact inside.symm
    | cons first rest =>
      rw [List.nil_append] at different free ⊢
      rw [heldAt?_cons, heldAt?_cons, child?_put]
      split
      · rename_i same
        subst same
        -- Neither the new file nor what it replaces has anything below it.
        cases rest with
        | nil => exact absurd rfl different
        | cons second rest =>
          have new : (Tree.file bytes).heldAt? (second :: rest) = none :=
            heldAt?_cons_of_ne_directory Held.noConfusion second rest
          rw [heldAt?_cons] at free
          cases old : tree.child? first with
          | none => exact new
          | some child =>
            have isFile : child.held ≠ .directory := by simpa [old] using free
            exact new.trans (heldAt?_cons_of_ne_directory isFile second rest).symm
      · rfl
  | cons top above ih =>
    rw [List.cons_append] at different free ⊢
    cases other with
    | nil =>
      cases tree with
      | directory entries => rfl
      | file bytes' =>
        rw [heldAt?_cons_of_ne_directory Held.noConfusion] at inside
        cases inside
    | cons first rest =>
      rw [heldAt?_cons, heldAt?_cons, child?_put]
      split
      · rename_i same
        subst same
        obtain ⟨child, found, inside⟩ := Option.bind_eq_some_iff.mp (heldAt?_cons _ _ _ ▸ inside)
        rw [heldAt?_cons, found, Option.bind_some] at free
        have elsewhere : rest ≠ above ++ [name] := fun same => different (by rw [same])
        rw [found, Option.bind_some, Option.bind_some, Option.getD_some, ih inside free elsewhere]
      · rfl

end Tree

namespace FileSystem

/-! ## Following paths -/

/-- Whether every directory of a tree is a directory of another one that has all its names. -/
structure Extends (new old : Tree) : Prop where
  directory : ∀ place, old.heldAt? place = some .directory → new.heldAt? place = some .directory
  present : ∀ place, (old.heldAt? place).isSome → (new.heldAt? place).isSome

private theorem heldAt?_eq_directory_iff {tree : Tree} {place : List FileName} :
    tree.heldAt? place = some .directory ↔ ∃ entries, tree.at? place = some (.directory entries) := by
  unfold Tree.heldAt?
  cases tree.at? place with
  | none => simp
  | some found => cases found <;> simp [Tree.held]

/-- Pieces are followed one by one. -/
private theorem follow_cons (root : Tree) (place : List FileName) (piece : String)
    (rest : List String) :
    follow root place (piece :: rest) =
      follow root place [piece] >>= fun next => follow root next rest := by
  rw [follow, follow]
  cases root.at? place with
  | none => rfl
  | some tree =>
    cases tree with
    | file bytes => rfl
    | directory entries =>
      dsimp only
      repeat' split
      all_goals rfl

private theorem follow_append (root : Tree) (place : List FileName) (first rest : List String) :
    follow root place (first ++ rest) =
      follow root place first >>= fun between => follow root between rest := by
  induction first generalizing place with
  | nil => rfl
  | cons piece first ih =>
    rw [List.cons_append, follow_cons, follow_cons root place piece first, bind_assoc]
    simp only [ih]

/-- The place that a piece of a path stands for, seen from a directory. -/
def enter (place : List FileName) (piece : String) : List FileName :=
  if piece = "" ∨ piece = "." then place
  else if piece = ".." then place.dropLast
  else place ++ [.ofText piece]

private theorem enter_name {name : String} (named : name ∉ ["", ".", ".."])
    (place : List FileName) :
    enter place name = place ++ [.ofText name] := by
  simp only [List.mem_cons, List.not_mem_nil, or_false, not_or] at named
  simp [enter, named]

/-- A piece leads from a directory to the place that it stands for, if there is something. -/
private theorem follow_singleton_eq_ok_iff {root : Tree} {place next : List FileName}
    {piece : String} :
    follow root place [piece] = .ok next ↔
      root.heldAt? place = some .directory ∧ (root.heldAt? next).isSome ∧
        enter place piece = next := by
  rw [heldAt?_eq_directory_iff, follow, enter]
  -- Dots stay or go up, which are always there; a name has to be looked up.
  cases found : root.at? place with
  | none => simp
  | some here =>
    cases here with
    | file bytes => simp
    | directory entries =>
      have there : (root.heldAt? place).isSome := by simp [Tree.heldAt?, found]
      simp only [follow, Option.some.injEq, Tree.directory.injEq, exists_eq', true_and]
      split
      · simpa using fun same => same ▸ there
      split
      · simpa using fun same => same ▸ Tree.isSome_heldAt?_dropLast there
      · have below := congrArg Option.isSome (Tree.heldAt?_below found piece)
        rw [Option.isSome_map] at below
        rw [← below]
        split
        · simpa using fun same => same ▸ ‹_›
        · simpa using fun there same => absurd (same ▸ there) ‹_›

/-- Pieces that were followed are followed where nothing was taken away. -/
private theorem Extends.follow {new old : Tree} (grown : Extends new old)
    {place last : List FileName}
    {all : List String} (followed : follow old place all = .ok last) :
    FileSystem.follow new place all = .ok last := by
  -- Every step leads to the same place: where it leads depends on the pieces alone, once there is
  -- a directory to leave and something to arrive at.
  induction all generalizing place with
  | nil => exact followed
  | cons piece rest ih =>
    rw [follow_cons, bind_eq_ok_iff] at followed ⊢
    obtain ⟨next, step, followed⟩ := followed
    obtain ⟨inside, there, same⟩ := follow_singleton_eq_ok_iff.mp step
    exact ⟨next, follow_singleton_eq_ok_iff.mpr
      ⟨grown.directory place inside, grown.present next there, same⟩, ih followed⟩

/-! ## Writing -/

/-- Where a file can be written: under a name in a directory that has no directory of that name. -/
structure Target (fs : FileSystem) (path : String) (above : List FileName) (name : String) : Prop where
  notEmpty : path.isEmpty = false
  noNul : path.toList.contains '\x00' = false
  ends : pieces path = (pieces path).dropLast ++ [name]
  followed : follow fs.root (fs.start path) (pieces path).dropLast = .ok above
  named : name ∉ ["", ".", ".."]
  inside : fs.root.heldAt? above = some .directory
  free : fs.root.heldAt? (above ++ [.ofText name]) ≠ some .directory

private theorem target_eq_ok {fs : FileSystem} {path : String} {place : List FileName}
    (found : fs.target path = .ok place) :
    ∃ above name, place = above ++ [.ofText name] ∧ Target fs path above name := by
  unfold target at found
  simp only [throw_eq_error, error_bind] at found
  split at found
  · cases found
  rename_i notEmpty
  split at found
  · cases found
  rename_i noNul
  obtain ⟨above, followed, found⟩ := bind_eq_ok_iff.mp found
  split at found
  · cases found
  rename_i named
  -- A path without pieces has no last name, which is refused like the empty one.
  have nonempty : pieces path ≠ [] := fun none => named (by simp [none])
  have last := List.getLast?_eq_some_getLast nonempty
  rw [last, Option.getD_some] at named found
  split at found
  case h_2 => cases found
  case h_1 entries here =>
    have below := Tree.heldAt?_below here ((pieces path).getLast nonempty)
    refine ⟨above, (pieces path).getLast nonempty, ?_, {
      notEmpty := Bool.eq_false_iff.mpr notEmpty
      noNul := Bool.eq_false_iff.mpr noNul
      ends := (List.dropLast_concat_getLast nonempty).symm
      followed, named
      inside := heldAt?_eq_directory_iff.mpr ⟨entries, here⟩
      free := ?_ }⟩
    all_goals split at found <;> try cases found
    · rfl
    · rename_i other
      rw [below]
      intro isDirectory
      obtain ⟨child, found, held⟩ := Option.map_eq_some_iff.mp isDirectory
      cases child with
      | file bytes => cases held
      | directory inner => exact other inner found

/-- Where nothing was taken away, the path leads to the place to be written once something is
there. -/
private theorem Target.locate_eq {fs : FileSystem} {path : String} {above : List FileName}
    {name : String}
    (target : Target fs path above name) {root : Tree} (grown : Extends root fs.root)
    (there : (root.heldAt? (above ++ [.ofText name])).isSome) :
    locate ⟨root, fs.workingDirectory⟩ path = .ok (above ++ [.ofText name]) := by
  rw [locate, target.notEmpty, target.noNul, target.ends]
  refine (follow_append ..).trans (bind_eq_ok_iff.mpr ⟨above, grown.follow target.followed, ?_⟩)
  exact follow_singleton_eq_ok_iff.mpr
    ⟨grown.directory above target.inside, there, enter_name target.named above⟩

/-- How a file system comes from another one by a write: the path leads to a file with the contents
that were written, and every other place holds what it held. -/
structure Written (old new : FileSystem) (path : String) (place : List FileName)
    (bytes : ByteArray) : Prop where
  workingDirectory : new.workingDirectory = old.workingDirectory
  located : new.locate path = .ok place
  holds : new.read path = .ok bytes
  elsewhere : ∀ other, other ≠ place → new.root.heldAt? other = old.root.heldAt? other
  /-- If there was something before, the path led to it. -/
  replaced : (old.root.heldAt? place).isSome → old.locate path = .ok place

/-- A write changes the file that the path leads to, and nothing else. -/
theorem written_of_write {old new : FileSystem} {path : String} {bytes : ByteArray}
    (written : old.write path bytes = .ok new) : ∃ place, Written old new path place bytes := by
  obtain ⟨place, found, same⟩ := bind_eq_ok_iff.mp written
  cases same
  obtain ⟨above, name, rfl, target⟩ := target_eq_ok found
  have elsewhere (other : List FileName) (different : other ≠ above ++ [.ofText name]) :
      (Tree.put (.file bytes) (above ++ [.ofText name]) old.root).heldAt? other =
        old.root.heldAt? other :=
    Tree.heldAt?_put_of_ne target.inside target.free different
  have present := Tree.at?_put (.file bytes) old.root (above ++ [.ofText name])
  have there : ((Tree.put (.file bytes) (above ++ [.ofText name]) old.root).heldAt?
      (above ++ [.ofText name])).isSome := by simp [Tree.heldAt?, present]
  -- The write replaces no directory, so whatever path was followed before is followed still.
  have grown : Extends (Tree.put (.file bytes) (above ++ [.ofText name]) old.root) old.root := by
    constructor
    · intro other isDirectory
      rwa [elsewhere other fun same => target.free (same ▸ isDirectory)]
    · intro other held
      by_cases same : other = above ++ [.ofText name]
      · exact same ▸ there
      · rwa [elsewhere other same]
  have located := target.locate_eq grown there
  refine ⟨above ++ [.ofText name], rfl, located, ?_, elsewhere,
    target.locate_eq ⟨fun _ => id, fun _ => id⟩⟩
  rw [read, find, located, ok_bind, present]
  rfl

/-- A path that led to nothing is written at a place that held nothing. -/
theorem Written.fresh {old new : FileSystem} {path : String} {place : List FileName}
    {bytes : ByteArray} (written : Written old new path place bytes)
    (missing : old.contains path = false) : old.root.heldAt? place = none := by
  rw [← Option.not_isSome_iff_eq_none]
  intro there
  obtain ⟨tree, found⟩ := Option.isSome_iff_exists.mp (Option.isSome_map.symm.trans there)
  simp [contains, find, written.replaced there, ok_bind, found, pure, Except.pure] at missing

end FileSystem
end Blueprint
