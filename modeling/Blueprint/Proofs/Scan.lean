import Blueprint.Proofs.Arrangement
import Blueprint.Proofs.Tolerance

/-!
# Which files a scan visits

A scan goes through exactly the source files that are not too deep and to which no name leads that
is left out, in preorder with siblings in the order of the bytes of their names. Leaving out more
makes a scan go through some of these files only, so that it gives some of what it gave before.
-/

namespace Blueprint.Scan

/-! ## Names and paths -/

/-- An entry is not left out for its name, which is a text. -/
structure Shown (options : ScanOptions) (name : String) : Prop where
  notHidden : name.toList.head? ≠ some '.'
  notKnown : name ∉ [".terraform", ".terragrunt-cache", "terraform.tfstate"]
  notExcluded : ∀ pattern ∈ options.excludePatterns, Glob.matchesName pattern name = false

private theorem isSkipped_ofText_eq_false_iff {options : ScanOptions} {text : String} :
    isSkipped options (.ofText text) = false ↔ Shown options text := by
  simp only [isSkipped, FileName.text?_ofText, Bool.or_eq_false_iff, beq_eq_false_iff_ne,
    List.any_eq_false, Bool.not_eq_true, List.contains_eq_mem, decide_eq_false_iff_not, and_assoc]
  constructor
  · rintro ⟨hidden, known, excluded⟩
    exact ⟨hidden, known, excluded⟩
  · intro shown
    exact ⟨shown.notHidden, shown.notKnown, shown.notExcluded⟩

/-- A name that is not text does not keep a scan from its entry. -/
private theorem isSkipped_eq_false_iff {options : ScanOptions} {name : FileName} :
    isSkipped options name = false ↔ ∀ text, name = .ofText text → Shown options text := by
  cases written : name.text? with
  | none =>
    have never (text : String) : name ≠ .ofText text := by
      rintro rfl
      simp at written
    simp [isSkipped, written, never]
  | some text =>
    obtain rfl := FileName.text?_eq_some_iff.mp written
    rw [isSkipped_ofText_eq_false_iff]
    simp [@eq_comm _ text]

variable {options fewer : ScanOptions} {depth depth' : Nat} {entries : List (FileName × Tree)}
  {tree : Tree} {names : List FileName} {bytes : ByteArray}

mutual
/-- The source files of a tree that is shown under a name, by the names that lead to them. -/
def foundOf (options : ScanOptions) (name : String) (depth : Nat) :
    Tree → List (List FileName × ByteArray)
  | .file bytes => if isSource name then [([], bytes)] else []
  | .directory entries =>
    match depth with
    | 0 => []
    | depth + 1 => foundIn options depth entries

def foundIn (options : ScanOptions) (depth : Nat) :
    List (FileName × Tree) → List (List FileName × ByteArray)
  | [] => []
  | (name, tree) :: rest =>
    let here :=
      if isSkipped options name then []
      else (foundOf options name.shown depth tree).map fun (names, bytes) => (name :: names, bytes)
    here ++ foundIn options depth rest
end

/-- A file that was found, by its path. -/
def located (directory : String) (file : List FileName × ByteArray) : String × ByteArray :=
  ((file.1.map FileName.shown).foldl Path.join directory, file.2)

mutual
private theorem filesOf_eq (options : ScanOptions) (path name : String) (depth : Nat) :
    (tree : Tree) →
    filesOf options path name depth tree = (foundOf options name depth tree).map (located path)
  | .file bytes => by
    simp only [filesOf, foundOf]
    split <;> rfl
  | .directory entries => by
    cases depth with
    | zero => rfl
    | succ depth => exact filesIn_eq options path depth entries

private theorem filesIn_eq (options : ScanOptions) (directory : String) (depth : Nat) :
    (entries : List (FileName × Tree)) →
      filesIn options directory depth entries =
        (foundIn options depth entries).map (located directory)
  | [] => rfl
  | (name, tree) :: rest => by
    simp only [filesIn, foundIn, List.map_append,
      filesOf_eq options (Path.join directory name.shown) name.shown depth tree,
      filesIn_eq options directory depth rest]
    congr 1
    split
    · rfl
    · simp [located]
end

mutual
/-- The files that are found in a tree are its source files that are not too deep, and to which no
name leads that is left out. -/
private theorem mem_foundOf_iff (options : ScanOptions) (name : String) (depth : Nat) :
    (tree : Tree) → tree.Ordered → (names : List FileName) → (bytes : ByteArray) →
      ((names, bytes) ∈ foundOf options name depth tree ↔
        tree.at? names = some (.file bytes) ∧ names.length ≤ depth ∧
          isSource ((names.map FileName.shown).getLastD name) = true ∧
            ∀ name ∈ names, isSkipped options name = false)
  | .file content, _, names, bytes => by
    have found : (names, bytes) ∈ foundOf options name depth (.file content) ↔
        names = [] ∧ content = bytes ∧ isSource name = true := by
      rw [foundOf]
      split <;> simp_all [@eq_comm _ bytes]
    rw [found]
    cases names <;> simp [Tree.at?, Tree.child?, Tree.entries]
  | .directory entries, ordered, names, bytes => by
    cases depth with
    | zero => cases names <;> simp [foundOf, Tree.at?]
    | succ depth =>
      rw [foundOf, mem_foundIn_iff options depth entries ordered names bytes]
      cases names with
      | nil => simp [Tree.at?]
      | cons other names => rfl

private theorem mem_foundIn_iff (options : ScanOptions) (depth : Nat) :
    (entries : List (FileName × Tree)) → (Tree.directory entries).Ordered → (names : List FileName) →
      (bytes : ByteArray) →
      ((names, bytes) ∈ foundIn options depth entries ↔
        (Tree.directory entries).at? names = some (.file bytes) ∧ names.length ≤ depth + 1 ∧
          isSource ((names.map FileName.shown).getLastD "") = true ∧
            ∀ name ∈ names, isSkipped options name = false)
  | [], _, names, bytes => by
    cases names <;> simp [foundIn, Tree.at?, Tree.child?, Tree.entries]
  | (name, tree) :: rest, ordered, names, bytes => by
    have inside := mem_foundOf_iff options name.shown depth tree ordered.head
    have here : (names, bytes) ∈ (if isSkipped options name then []
          else
            (foundOf options name.shown depth tree).map fun (names, bytes) => (name :: names, bytes)) ↔
        isSkipped options name = false ∧
          ∃ below, names = name :: below ∧
            (below, bytes) ∈ foundOf options name.shown depth tree := by
      cases isSkipped options name <;> simp [@eq_comm _ names, and_comm]
    rw [foundIn, List.mem_append, here,
      mem_foundIn_iff options depth rest ordered.tail names bytes]
    cases names with
    | nil => simp [Tree.at?]
    | cons other names =>
      rw [Tree.at?_cons, List.map_cons, List.getLastD_cons, List.forall_mem_cons, List.length_cons,
        Nat.add_le_add_iff_right]
      by_cases same : other = name
      · -- Only the first entry has this name.
        subst same
        simp only [ordered.at?_tail, List.cons.injEq, true_and, exists_eq_left', inside, if_true,
          reduceCtorEq, false_and, or_false]
        tauto
      · simp [same]
end

/-- A scan treats a directory like one that is an entry of another. -/
private theorem visited_eq_filesOf (options : ScanOptions) (path : String)
    (entries : List (FileName × Tree)) :
    visited options path entries =
      filesOf options path "" options.maxDepth (.directory entries) := by
  rw [visited]
  cases options.maxDepth <;> rfl

/-! ## The order of visits -/

/-- Preorder of places, with siblings in the order of the bytes of their names. -/
def Before (a b : List FileName) : Prop :=
  List.Lex (fun x y => x.bytes < y.bytes) a b

private theorem exists_entry_of_mem_foundIn {file : List FileName × ByteArray}
    (member : file ∈ foundIn options depth entries) :
    ∃ entry ∈ entries, ∃ below, file.1 = entry.1 :: below := by
  induction entries with
  | nil => cases member
  | cons entry rest ih =>
    obtain ⟨name, tree⟩ := entry
    rcases List.mem_append.mp member with here | behind
    · split at here
      · cases here
      · obtain ⟨inner, -, rfl⟩ := List.mem_map.mp here
        exact ⟨_, List.mem_cons_self, inner.1, rfl⟩
    · obtain ⟨other, among, below⟩ := ih behind
      exact ⟨other, List.mem_cons_of_mem _ among, below⟩

mutual
private theorem pairwise_foundOf (options : ScanOptions) (name : String) (depth : Nat) :
    (tree : Tree) → tree.Ordered →
      (foundOf options name depth tree).Pairwise fun a b => Before a.1 b.1
  | .file bytes, _ => by
    rw [foundOf]
    split <;> simp
  | .directory entries, ordered => by
    cases depth with
    | zero => exact .nil
    | succ depth => exact pairwise_foundIn options depth entries ordered

private theorem pairwise_foundIn (options : ScanOptions) (depth : Nat) :
    (entries : List (FileName × Tree)) → (Tree.directory entries).Ordered →
      (foundIn options depth entries).Pairwise fun a b => Before a.1 b.1
  | [], _ => .nil
  | (name, tree) :: rest, ordered => by
    have inside := pairwise_foundOf options name.shown depth tree ordered.head
    refine List.pairwise_append.mpr ⟨?_, pairwise_foundIn options depth rest ordered.tail, ?_⟩
    · split
      · exact .nil
      · exact List.pairwise_map.mpr (inside.imp fun before => .cons before)
    · -- What is found behind begins with a name that comes later.
      intro a here b behind
      split at here
      · cases here
      · obtain ⟨inner, -, rfl⟩ := List.mem_map.mp here
        obtain ⟨entry, among, below, same⟩ := exists_entry_of_mem_foundIn behind
        rw [same]
        exact .rel (ordered.head_lt entry among)
end

/-! ## Leaving out more -/

/-- Options with which a scan leaves out more. -/
structure Fewer (fewer options : ScanOptions) : Prop where
  depth : fewer.maxDepth ≤ options.maxDepth
  patterns : options.excludePatterns ⊆ fewer.excludePatterns
  tolerance : fewer.continueOnError = options.continueOnError

/-- What is shown though more is left out was shown before. -/
private theorem Fewer.shown (less : Fewer fewer options) {text : String}
    (shown : Shown fewer text) :
    Shown options text :=
  ⟨shown.notHidden, shown.notKnown, fun pattern member =>
    shown.notExcluded pattern (less.patterns member)⟩

mutual
private theorem filesOf_sublist (less : Fewer fewer options) (path name : String)
    {depth depth' : Nat}
    (shallow : depth ≤ depth') : (tree : Tree) →
      (filesOf fewer path name depth tree).Sublist (filesOf options path name depth' tree)
  | .file bytes => by
    rw [filesOf, filesOf]
  | .directory entries => by
    cases depth with
    | zero => exact List.nil_sublist _
    | succ depth =>
      cases depth' with
      | zero => cases shallow
      | succ depth' => exact filesIn_sublist less path (Nat.le_of_succ_le_succ shallow) entries

private theorem filesIn_sublist (less : Fewer fewer options) (directory : String)
    {depth depth' : Nat}
    (shallow : depth ≤ depth') : (entries : List (FileName × Tree)) →
      (filesIn fewer directory depth entries).Sublist (filesIn options directory depth' entries)
  | [] => .slnil
  | (name, tree) :: rest => by
    refine List.Sublist.append ?_ (filesIn_sublist less directory shallow rest)
    cases skipped : isSkipped fewer name with
    | true => exact List.nil_sublist _
    | false =>
      -- A pattern that skipped the entry before would skip it still.
      have shown (text : String) (written : name = .ofText text) : Shown options text :=
        less.shown (isSkipped_eq_false_iff.mp skipped text written)
      rw [isSkipped_eq_false_iff.mpr shown]
      exact filesOf_sublist less _ name.shown shallow tree
end

private theorem visited_sublist (less : Fewer fewer options) (path : String)
    (entries : List (FileName × Tree)) :
    (visited fewer path entries).Sublist (visited options path entries) := by
  rw [visited_eq_filesOf, visited_eq_filesOf]
  exact filesOf_sublist less path "" less.depth (.directory entries)

/-- What some of the files are sorted into is among what all of them are sorted into. -/
private theorem Sifted.sublist {scanned part : List (String × ByteArray)} {files : List SourceFile}
    {errors : List Error} (sifted : Sifted scanned files errors) (among : part.Sublist scanned) :
    ∃ files' errors', Sifted part files' errors' ∧ files'.Sublist files ∧
      errors'.Sublist errors := by
  -- The part leaves out each file or keeps it, and what the file was sorted into with it.
  induction sifted generalizing part with
  | nil =>
    obtain rfl := List.sublist_nil.mp among
    exact ⟨[], [], .nil, .slnil, .slnil⟩
  | read accepted _ ih =>
    cases among with
    | cons _ among =>
      obtain ⟨files', errors', sifted, read, refused⟩ := ih among
      exact ⟨files', errors', sifted, read.cons _, refused⟩
    | cons_cons _ among =>
      obtain ⟨files', errors', sifted, read, refused⟩ := ih among
      exact ⟨_, errors', .read accepted sifted, read.cons_cons _, refused⟩
  | faulty fault _ ih =>
    cases among with
    | cons _ among =>
      obtain ⟨files', errors', sifted, read, refused⟩ := ih among
      exact ⟨files', errors', sifted, read, refused.cons _⟩
    | cons_cons _ among =>
      obtain ⟨files', errors', sifted, read, refused⟩ := ih among
      exact ⟨files', _, .faulty fault sifted, read, refused.cons_cons _⟩

/-- A scan that succeeds sorts the files that it goes through. -/
private theorem readAll_eq_ok_iff {tolerant : Bool} {scanned : List (String × ByteArray)}
    {files : List SourceFile} {errors : List Error} :
    readAll tolerant scanned = .ok ⟨files, errors⟩ ↔
      Sifted scanned files errors ∧ (tolerant = false → errors = []) := by
  cases tolerant with
  | true => simp [readAll_tolerant_eq_ok_iff]
  | false => simp [readAll_strict_eq_ok_iff, readAll_tolerant_eq_ok_iff]

/-! ## Scans of directories -/

/-- A scan that succeeds found a directory and sorted the files that it went through. -/
private theorem directory_eq_ok_iff {fs : FileSystem} {path : String} {files : List SourceFile}
    {errors : List Error} :
    directory options fs path = .ok ⟨files, errors⟩ ↔
      ∃ entries, fs.directory? path = some entries ∧
        Sifted (visited options path entries) files errors ∧
        (options.continueOnError = false → errors = []) := by
  rw [directory]
  split
  · next missing => simp [missing]
  · next entries found =>
    simp only [found, Option.some.injEq, exists_eq_left', ← readAll_eq_ok_iff]
    rfl

/-- With less depth or more patterns a scan succeeds too, and gives some of what it gave before. -/
private theorem Fewer.directory {fs : FileSystem} {path : String} {files : List SourceFile}
    {errors : List Error} (less : Fewer fewer options)
    (succeeded : directory options fs path = .ok ⟨files, errors⟩) :
    ∃ others, directory fewer fs path = .ok others ∧
      others.files.Sublist files ∧ others.errors.Sublist errors := by
  obtain ⟨entries, found, sifted, strict⟩ := directory_eq_ok_iff.mp succeeded
  obtain ⟨files', errors', sifted', read, refused⟩ :=
    sifted.sublist (visited_sublist less path entries)
  refine ⟨⟨files', errors'⟩, directory_eq_ok_iff.mpr ⟨entries, found, sifted', ?_⟩, read, refused⟩
  -- Where nothing is tolerated nothing was refused, and so nothing is now.
  intro notTolerant
  rw [less.tolerance] at notTolerant
  rw [strict notTolerant] at refused
  exact List.sublist_nil.mp refused

/-- A name that begins with a dot and ends like that of a source file, and is not text. -/
def undecodable : FileName := ⟨[0x2E, 0xFF, 0x2E, 0x74, 0x66]⟩

/-- A blueprint with a faulty file in a module, one in a hidden directory, and one whose name is not
text, listed in no order. -/
def nested : Tree :=
  .directory [("bp", .directory
    [("modules", .directory
        [("b.tf", .file "x".toUTF8), (".git", .directory [("c.tf", .file "x".toUTF8)])]),
      ("a.tf", .file "".toUTF8), (undecodable, .file "".toUTF8)])]

end Blueprint.Scan
