import Blueprint.Proofs.Interface.Names
import Mathlib.Data.List.Nodup

/-!
# Declarations in files

The blocks of one kind in several files are one list of declarations, and reading them succeeds
exactly when nothing is wrong with a name in that list (`namedIn_eq_ok_iff`,
`accepted_iff_not_atFault`). Reading an interface and placing its variables are two loops over the
same files. The first one reads variables and outputs of a file in turn and remembers names in sets,
the second one reads variables only and counts what is in its map. Both are compared with `namedIn`,
which reads one kind of block and does nothing else.
-/

namespace Blueprint.Interface

/-- The blocks of one kind in files, in the order of files and then of the source. -/
def blocksIn (kind : String) (files : List SourceFile) : List Hcl.Block :=
  files.flatMap fun file => file.body.blocksOf kind

/-- A name of white space only, or of nothing. -/
def Blank (name : String) : Prop :=
  ∀ c ∈ name.toList, Text.isBlank c = true

/-- Some block of a list has no name or a blank one, or has the name of a block before it. -/
inductive AtFault (blocks : List Hcl.Block) : Prop where
  | unnamed {block : Hcl.Block} : block ∈ blocks → block.name? = none → AtFault blocks
  | blank {block : Hcl.Block} {name : String} :
      block ∈ blocks → block.name? = some name → Blank name → AtFault blocks
  | repeated {first second : Hcl.Block} {name : String} :
      [first, second].Sublist blocks → first.name? = some name → second.name? = some name →
      AtFault blocks

/-- Blocks with the names they are given, all of which are new. -/
structure Accepted (seen : List String) (found : List (String × Hcl.Block)) : Prop where
  named : ∀ pair ∈ found, pair.2.name? = some pair.1 ∧ ¬ Blank pair.1
  new : NewNames seen (found.map (·.1))

private theorem blockName_eq_ok_iff {block : Hcl.Block} {name : String} :
    blockName block = .ok name ↔ block.name? = some name ∧ ¬ Blank name := by
  unfold blockName
  cases block.name? with
  | none => simp
  | some found =>
    by_cases blank : Blank found
    · have all : found.toList.all Text.isBlank = true := List.all_eq_true.mpr blank
      simp only [all, if_true, reduceCtorEq, Option.some.injEq, false_iff, not_and, not_not]
      rintro rfl
      exact blank
    · have all : ¬ found.toList.all Text.isBlank = true := fun every =>
        blank (List.all_eq_true.mp every)
      simp only [all, Bool.false_eq_true, if_false, Except.ok.injEq, Option.some.injEq]
      constructor
      · rintro rfl
        exact ⟨rfl, blank⟩
      · exact And.left

private theorem newNames_append_iff {seen front back : List String} :
    NewNames seen (front ++ back) ↔ NewNames seen front ∧ NewNames (front ++ seen) back := by
  constructor
  · intro new
    obtain ⟨first, later, apart⟩ := List.nodup_append.mp new.distinct
    refine ⟨⟨first, fun name member => new.unseen name (by simp [member])⟩, later, ?_⟩
    intro name member old
    rcases List.mem_append.mp old with inFront | before
    · exact apart name inFront name member rfl
    · exact new.unseen name (by simp [member]) before
  · rintro ⟨first, later⟩
    exact first.append later

private theorem accepted_append_iff {seen : List String} {front back : List (String × Hcl.Block)} :
    Accepted seen (front ++ back) ↔
      Accepted seen front ∧ Accepted (front.map (·.1) ++ seen) back := by
  constructor
  · rintro ⟨named, new⟩
    rw [List.map_append, newNames_append_iff] at new
    exact ⟨⟨fun pair member => named pair (by simp [member]), new.1⟩,
      fun pair member => named pair (by simp [member]), new.2⟩
  · rintro ⟨first, later⟩
    refine ⟨fun pair member => ?_, ?_⟩
    · rcases List.mem_append.mp member with inFront | inBack
      · exact first.named pair inFront
      · exact later.named pair inBack
    · rw [List.map_append, newNames_append_iff]
      exact ⟨first.new, later.new⟩

private theorem accepted_singleton_iff {seen : List String} {name : String} {block : Hcl.Block} :
    Accepted seen [(name, block)] ↔ blockName block = .ok name ∧ name ∉ seen := by
  rw [blockName_eq_ok_iff]
  constructor
  · rintro ⟨named, new⟩
    exact ⟨named (name, block) (by simp), new.unseen name (by simp)⟩
  · rintro ⟨named, unseen⟩
    exact ⟨by simpa using named, by simp, by simpa using unseen⟩

private theorem named_eq_ok_iff {path : String} {seen : List String} {blocks : List Hcl.Block}
    {found : List (String × Hcl.Block)} :
    named path seen blocks = .ok found ↔ found.map (·.2) = blocks ∧ Accepted seen found := by
  -- The name of a block is seen by all blocks after it, so the seen names have to vary.
  induction blocks generalizing seen found with
  | nil =>
    simp only [named, Except.ok.injEq, List.map_eq_nil_iff]
    constructor
    · rintro rfl
      exact ⟨rfl, by simp, newNames_nil seen⟩
    · exact fun accepted => accepted.1.symm
  | cons block rest ih =>
    constructor
    · intro accepted
      simp only [named] at accepted
      split at accepted
      · cases accepted
      · rename_i name chosen
        split at accepted
        · cases accepted
        · rename_i unseen
          obtain ⟨others, later, rfl⟩ := map_eq_ok_iff.1 accepted
          obtain ⟨same, tail⟩ := ih.mp later
          refine ⟨by simp [same], ?_⟩
          exact accepted_append_iff.mpr
            ⟨accepted_singleton_iff.mpr ⟨chosen, unseen⟩, by simpa using tail⟩
    · rintro ⟨same, accepted⟩
      obtain ⟨⟨name, head⟩, others, rfl, rfl, tail⟩ := List.map_eq_cons_iff.mp same
      obtain ⟨first, later⟩ := accepted_append_iff.mp (by simpa using accepted :
        Accepted seen ([(name, head)] ++ others))
      obtain ⟨chosen, unseen⟩ := accepted_singleton_iff.mp first
      have read := ih.mpr ⟨tail, by simpa using later⟩
      simp [named, chosen, unseen, read, Except.map]

/-- The blocks of one kind in files with their names, which are new. -/
def namedIn (kind : String) (seen : List String) :
    List SourceFile → Except Error (List (String × Hcl.Block))
  | [] => .ok []
  | file :: rest => do
    let here ← named file.path seen (file.body.blocksOf kind)
    let later ← namedIn kind (here.map (·.1) ++ seen) rest
    return here ++ later

theorem namedIn_eq_ok_iff {kind : String} {seen : List String} {files : List SourceFile}
    {found : List (String × Hcl.Block)} :
    namedIn kind seen files = .ok found ↔
      found.map (·.2) = blocksIn kind files ∧ Accepted seen found := by
  induction files generalizing seen found with
  | nil =>
    simp only [namedIn, blocksIn, Except.ok.injEq, List.flatMap_nil, List.map_eq_nil_iff]
    constructor
    · rintro rfl
      exact ⟨rfl, by simp, newNames_nil seen⟩
    · exact fun accepted => accepted.1.symm
  | cons file rest ih =>
    simp only [namedIn, bind_eq_ok_iff, pure_eq_ok_iff, named_eq_ok_iff, ih]
    constructor
    · rintro ⟨here, ⟨same, first⟩, later, ⟨others, tail⟩, rfl⟩
      exact ⟨by simp [blocksIn, same, others], accepted_append_iff.mpr ⟨first, tail⟩⟩
    · rintro ⟨same, accepted⟩
      -- The blocks that were found are those of the first file, then those of the others.
      obtain ⟨here, later, rfl, first, others⟩ := List.map_eq_append_iff.mp same
      obtain ⟨front, tail⟩ := accepted_append_iff.mp accepted
      exact ⟨here, ⟨first, front⟩, later, ⟨others, tail⟩, rfl⟩

/-- Blocks can all be given names exactly when none of them is at fault. -/
theorem accepted_iff_not_atFault {blocks : List Hcl.Block} :
    (∃ found, found.map (·.2) = blocks ∧ Accepted [] found) ↔ ¬ AtFault blocks := by
  constructor
  · rintro ⟨found, rfl, accepted⟩ fault
    have names : (found.map (·.2)).map Hcl.Block.name? = (found.map (·.1)).map some := by
      simp only [List.map_map]
      exact List.map_congr_left fun pair member => (accepted.named pair member).1
    cases fault with
    | unnamed member missing =>
      obtain ⟨pair, inFound, rfl⟩ := List.mem_map.mp member
      rw [(accepted.named pair inFound).1] at missing
      cases missing
    | blank member chosen blank =>
      obtain ⟨pair, inFound, rfl⟩ := List.mem_map.mp member
      obtain ⟨given, solid⟩ := accepted.named pair inFound
      obtain rfl := Option.some.inj (given.symm.trans chosen)
      exact solid blank
    | @repeated first second name pair one two =>
      -- Two blocks of one name would stand in the list of names twice.
      have twice : [some name, some name].Sublist ((found.map (·.1)).map some) := by
        rw [← names]
        simpa [one, two] using pair.map Hcl.Block.name?
      have distinct : ((found.map (·.1)).map some).Nodup :=
        accepted.new.distinct.map fun _ _ => Option.some.inj
      exact List.nodup_iff_sublist.mp distinct _ twice
  · intro sound
    have given : ∀ block ∈ blocks, ∃ name, block.name? = some name ∧ ¬ Blank name := by
      intro block member
      cases chosen : block.name? with
      | none => exact absurd (.unnamed member chosen) sound
      | some name => exact ⟨name, rfl, fun blank => sound (.blank member chosen blank)⟩
    -- Every block has a name, and a name that came twice would be a repetition.
    refine ⟨blocks.map fun block => (block.name?.getD "", block), by simp [Function.comp_def], ?_, ?_⟩
    · intro pair member
      obtain ⟨block, inBlocks, rfl⟩ := List.mem_map.mp member
      obtain ⟨name, chosen, solid⟩ := given block inBlocks
      simp [chosen, solid]
    · refine ⟨List.nodup_iff_sublist.mpr fun name twice => ?_, by simp⟩
      simp only [List.map_map] at twice
      obtain ⟨pair, inside, same⟩ := List.sublist_map_iff.mp twice
      obtain ⟨first, tail, rfl, one, rest⟩ := List.map_eq_cons_iff.mp same.symm
      obtain ⟨second, last, rfl, two, empty⟩ := List.map_eq_cons_iff.mp rest
      obtain rfl := List.map_eq_nil_iff.mp empty
      obtain ⟨a, chosenFirst, _⟩ := given first (inside.subset (by simp))
      obtain ⟨b, chosenSecond, _⟩ := given second (inside.subset (by simp))
      obtain rfl : a = name := by simpa [chosenFirst] using one
      obtain rfl : b = a := by simpa [chosenSecond] using two
      exact sound (.repeated inside chosenFirst chosenSecond)

end Blueprint.Interface
