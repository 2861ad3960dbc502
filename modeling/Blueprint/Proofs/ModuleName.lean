import Blueprint.Extract.ModuleName
import Blueprint.Proofs.Text
import Mathlib.Logic.Relation

/-!
# Names of submodules and spellings of paths

A path can be spelled in many ways: dots and slashes can be put into it, and names with `..` behind
them. `lexicalModuleName` names a submodule by what a path means, whatever its spelling.
`moduleName` agrees with it where the path and the root have the same kind of front (`dotsAgree`)
and no `..` takes back one of the two names that matter (`namesStand`). Elsewhere the spelling
counts: a dot in front of one of two relative paths hides every submodule.
-/

namespace Blueprint

namespace Path

/-! ## The steps of a path -/

/-- The steps that a path takes from where it starts. Dots and repeated slashes are none. -/
def steps (path : String) : List Component :=
  (Text.splitAtChar '/' path.toList).filterMap Component.ofPiece?

/-- Whether the first component of a path is a dot. -/
def startsWithDot (path : String) : Bool :=
  (Text.splitAtChar '/' path.toList).head? = some ['.']

/-- The component of a path that is no step. -/
def front (path : String) : List Component :=
  if isAbsolute path then [.root] else if startsWithDot path then [.current] else []

@[simp] theorem steps_empty : steps "" = [] := rfl

/-- A slash at the very front makes the first piece empty and another one follow. -/
private theorem isAbsolute_iff {path : String} {first : List Char} {rest : List (List Char)}
    (pieces : Text.splitAtChar '/' path.toList = first :: rest) :
    isAbsolute path = true ↔ first = [] ∧ rest ≠ [] := by
  unfold isAbsolute
  cases text : path.toList with
  | nil =>
    obtain ⟨rfl, rfl⟩ : [] = first ∧ [] = rest := by simpa [text, Text.splitAtChar] using pieces
    simp
  | cons c more =>
    rw [text, Text.splitAtChar] at pieces
    -- Splitting at a slash begins a new piece; another character goes to the front of the first.
    by_cases slash : c = '/'
    · rw [if_pos slash, List.cons.injEq] at pieces
      obtain ⟨rfl, rfl⟩ := pieces
      simp [slash, Text.splitAtChar_ne_nil]
    · rw [if_neg slash] at pieces
      have nonempty : first ≠ [] := by
        cases others : Text.splitAtChar '/' more with
        | nil => rw [others] at pieces; simp at pieces; simp [← pieces.1]
        | cons piece pieces' => rw [others] at pieces; simp at pieces; simp [← pieces.1]
      simp [slash, nonempty]

private theorem isAbsolute_of_startsWithDot {path : String} (dot : startsWithDot path = true) :
    isAbsolute path = false := by
  cases pieces : Text.splitAtChar '/' path.toList with
  | nil => exact absurd pieces (Text.splitAtChar_ne_nil _ _)
  | cons first rest =>
    obtain rfl : first = ['.'] := by simpa [startsWithDot, pieces] using dot
    simpa using isAbsolute_iff pieces

private theorem components_eq (path : String) : components path = front path ++ steps path := by
  cases pieces : Text.splitAtChar '/' path.toList with
  | nil => exact absurd pieces (Text.splitAtChar_ne_nil _ _)
  | cons first rest =>
    have absolute := isAbsolute_iff pieces
    simp only [components, pieces, front, startsWithDot, steps, List.head?_cons, Option.some.injEq]
    by_cases empty : first = []
    · subst empty
      by_cases alone : rest = []
      · have relative : isAbsolute path = false := by simpa [alone] using absolute
        simp [relative, alone, Component.ofPiece?]
      · have rooted : isAbsolute path = true := absolute.mpr ⟨rfl, alone⟩
        simp [rooted, alone, Component.ofPiece?]
    · have relative : isAbsolute path = false := by simpa [empty] using absolute
      by_cases dot : first = ['.']
      · simp [relative, dot, Component.ofPiece?]
      · cases piece : Component.ofPiece? first <;> simp [relative, empty, dot, piece]

/-- What a step can be. -/
private theorem name_or_parent_of_mem_steps {path : String} {c : Component}
    (step : c ∈ steps path) :
    c = .parent ∨ ∃ name, c = .normal name := by
  obtain ⟨piece, -, made⟩ := List.mem_filterMap.mp step
  unfold Component.ofPiece? at made
  split at made
  · cases made
  · split at made
    · exact .inl (Option.some.inj made).symm
    · exact .inr ⟨_, (Option.some.inj made).symm⟩

/-- A text that names can be put behind: it is empty or ends in a slash. -/
def IsDirectory (text : String) : Prop :=
  text = "" ∨ ∃ above, text = above ++ "/"

private theorem steps_append_slash (before after : String) :
    steps (before ++ "/" ++ after) = steps before ++ steps after := by
  simp [steps, Text.splitAtChar_append]

private theorem steps_append {before : String} (directory : IsDirectory before) (after : String) :
    steps (before ++ after) = steps before ++ steps after := by
  rcases directory with rfl | ⟨above, rfl⟩
  · simp
  · have alone : steps (above ++ "/") = steps above := by
      simpa using steps_append_slash above ""
    rw [steps_append_slash, alone]

private theorem steps_dot (after : String) : steps ("./" ++ after) = steps after := by
  have dot : steps "./" = [] := by decide +kernel
  rw [steps_append (.inr ⟨".", by decide +kernel⟩), dot, List.nil_append]

private theorem steps_parent (after : String) :
    steps ("../" ++ after) = .parent :: steps after := by
  have parent : steps "../" = [.parent] := by decide +kernel
  rw [steps_append (.inr ⟨"..", by decide +kernel⟩), parent, List.singleton_append]

private theorem isAbsolute_append {before : String} (nonempty : before ≠ "") (after : String) :
    isAbsolute (before ++ after) = isAbsolute before := by
  cases text : before.toList with
  | nil => exact absurd (String.toList_eq_nil_iff.mp text) nonempty
  | cons c rest => simp [isAbsolute, text]

/-! ## Spellings -/

/-- The second text is the first with a dot put in, or with a slash put behind. -/
inductive Dotted : String → String → Prop where
  | dot {before after : String} (directory : IsDirectory before)
      (start : isAbsolute (before ++ after) = isAbsolute (before ++ "./" ++ after)) :
      Dotted (before ++ after) (before ++ "./" ++ after)
  | slash {path : String} (nonempty : path ≠ "") : Dotted path (path ++ "/")

/-- The second text is the first with a dot put in, or with a name and `..` put in below the
root. -/
inductive Respelled (root : String) : String → String → Prop where
  | dotted {path path' : String} : Dotted path path' → Respelled root path path'
  | detour {before after name : String} (directory : IsDirectory before)
      (inside : (stripComponents? (steps root) (steps before)).isSome)
      (named : steps name = [.normal name])
      (start : isAbsolute (before ++ after) = isAbsolute (before ++ name ++ "/../" ++ after)) :
      Respelled root (before ++ after) (before ++ name ++ "/../" ++ after)

private theorem Dotted.same {path path' : String} (dotted : Dotted path path') :
    isAbsolute path' = isAbsolute path ∧ steps path' = steps path := by
  cases dotted with
  | @dot before after directory start =>
    refine ⟨start.symm, ?_⟩
    rw [String.append_assoc, steps_append directory, steps_dot, steps_append directory]
  | slash nonempty =>
    refine ⟨isAbsolute_append nonempty "/", ?_⟩
    simpa using steps_append_slash path ""

private theorem same_of_dotted {path path' : String} (dotted : Relation.EqvGen Dotted path path') :
    isAbsolute path' = isAbsolute path ∧ steps path' = steps path := by
  induction dotted with
  | rel path path' dotted => exact dotted.same
  | refl path => exact ⟨rfl, rfl⟩
  | symm path path' _ ih => exact ⟨ih.1.symm, ih.2.symm⟩
  | trans path path' path'' _ _ first second =>
    exact ⟨second.1.trans first.1, second.2.trans first.2⟩

/-! ## Names that `..` takes back -/

/-- The components that are kept after others, last one first, once every `..` has taken back the
name before it. -/
def settleOnto : List Component → List Component → List Component
  | kept, [] => kept.reverse
  | .normal _ :: kept, .parent :: rest => settleOnto kept rest
  | kept, c :: rest => settleOnto (c :: kept) rest

/-- Components without the names that a `..` takes back. -/
def settle (path : List Component) : List Component :=
  settleOnto [] path

/-- Whether some `..` takes back more than what stands before it, behind `depth` names. -/
def climbs : Nat → List Component → Bool
  | _, [] => false
  | 0, .parent :: _ => true
  | depth + 1, .parent :: rest => climbs depth rest
  | depth, _ :: rest => climbs (depth + 1) rest

private theorem settleOnto_detour (kept before after : List Component) (name : String) :
    settleOnto kept (before ++ .normal name :: .parent :: after) =
      settleOnto kept (before ++ after) := by
  fun_induction settleOnto kept before with
  | case1 kept => cases kept <;> simp [settleOnto]
  | case2 last kept rest ih => simpa [settleOnto] using ih
  | case3 kept c rest notTaken ih =>
    cases c with
    | parent =>
      cases kept with
      | nil => simpa [settleOnto] using ih
      | cons last kept =>
        cases last with
        | normal name => exact absurd rfl (notTaken name kept rfl)
        | root | current | parent => simpa [settleOnto] using ih
    | root | current | normal name => simpa [settleOnto] using ih

/-- What stands below names that no `..` climbs above stays where it is. -/
private theorem settleOnto_append (kept : List Component) {names rest : List Component}
    (named : ∀ c ∈ names, ∃ name, c = .normal name)
    (steps : ∀ c ∈ rest, c = .parent ∨ ∃ name, c = .normal name)
    (below : climbs names.length rest = false) :
    ∃ more, settleOnto (names ++ kept) rest = kept.reverse ++ more := by
  -- `names` is what has been put on `kept` so far; a `..` takes the last of them off.
  induction rest generalizing names with
  | nil => exact ⟨names.reverse, by simp [settleOnto]⟩
  | cons c rest ih =>
    have others : ∀ c ∈ rest, c = .parent ∨ ∃ name, c = .normal name :=
      fun c member => steps c (List.mem_cons_of_mem _ member)
    rcases steps c List.mem_cons_self with rfl | ⟨name, rfl⟩
    · cases names with
      | nil => simp [climbs] at below
      | cons last names =>
        obtain ⟨name, rfl⟩ := named last List.mem_cons_self
        simp only [List.cons_append, settleOnto]
        exact ih (fun c member => named c (List.mem_cons_of_mem _ member)) others
          (by simpa [climbs] using below)
    · have grown : settleOnto (names ++ kept) (.normal name :: rest) =
          settleOnto ((.normal name :: names) ++ kept) rest := by simp [settleOnto]
      rw [grown]
      refine ih (fun c member => ?_) others (by simpa [climbs] using below)
      rcases List.mem_cons.mp member with rfl | member
      · exact ⟨name, rfl⟩
      · exact named c member

private theorem stripComponents?_append {root before : List Component}
    (inside : (stripComponents? root before).isSome) (after : List Component) :
    stripComponents? root (before ++ after) =
      (stripComponents? root before).map (· ++ after) := by
  induction root generalizing before with
  | nil => simp [stripComponents?]
  | cons r root ih =>
    cases before with
    | nil => simp [stripComponents?] at inside
    | cons c before =>
      by_cases same : r = c
      · simp only [stripComponents?, same, if_true, List.cons_append] at inside ⊢
        exact ih inside
      · simp [stripComponents?, same] at inside

private theorem mem_of_stripComponents? {root path below : List Component}
    (stripped : stripComponents? root path = some below) {c : Component} (member : c ∈ below) :
    c ∈ path := by
  induction root generalizing path with
  | nil => simp_all [stripComponents?]
  | cons r root ih =>
    cases path with
    | nil => simp [stripComponents?] at stripped
    | cons p path =>
      simp only [stripComponents?] at stripped
      split at stripped
      · exact List.mem_cons_of_mem _ (ih stripped)
      · cases stripped

end Path

open Blueprint.Path

/-! ## The name by what a path means -/

/-- The submodule that components below the root lie in. -/
def submoduleOf : List Component → String
  | .normal directory :: .normal name :: _ => if directory = "modules" then name else rootModuleName
  | _ => rootModuleName

/-- The name of the submodule that a path leads to, seen from the root: the name under `modules`
where the path lies under the root, once dots are left out and names that a `..` takes back. -/
def lexicalModuleName (path root : String) : String :=
  match stripComponents? (steps root) (steps path) with
  | some below => submoduleOf (settle below)
  | none => rootModuleName

/-- A path and a root both start with a dot or both do not, or the root is the empty path. -/
def dotsAgree (path root : String) : Bool :=
  components root = [] || startsWithDot path = startsWithDot root

/-- No `..` is, or takes back, one of the first two components below the root. -/
def namesStand (path root : String) : Bool :=
  (stripComponents? (steps root) (steps path)).all fun below =>
    decide (Component.parent ∉ below.take 2) && !climbs 0 (below.drop 2)

private theorem lexicalModuleName_of_respelled {root path path' : String}
    (respelled : Relation.EqvGen (Respelled root) path path') :
    isAbsolute path' = isAbsolute path ∧
      lexicalModuleName path' root = lexicalModuleName path root := by
  induction respelled with
  | rel path path' respelled =>
    cases respelled with
    | dotted dotted => exact ⟨dotted.same.1, by simp only [lexicalModuleName, dotted.same.2]⟩
    | @detour before after name directory inside named start =>
      -- The way into a directory and back leaves the steps in front of it and behind it.
      refine ⟨start.symm, ?_⟩
      have back : steps (before ++ name ++ "/../" ++ after) =
          steps before ++ (.normal name :: .parent :: steps after) := by
        have split : before ++ name ++ "/../" ++ after =
            before ++ (name ++ "/" ++ ("../" ++ after)) := by
          rw [show "/../" = "/" ++ "../" by decide +kernel]
          simp only [String.append_assoc]
        rw [split, steps_append directory, steps_append_slash, steps_parent, named,
          List.singleton_append]
      obtain ⟨below, stripped⟩ := Option.isSome_iff_exists.mp inside
      simp only [lexicalModuleName, back, steps_append directory, stripComponents?_append inside,
        stripped, Option.map_some, settle, settleOnto_detour]
  | refl path => exact ⟨rfl, rfl⟩
  | symm path path' _ ih => exact ⟨ih.1.symm, ih.2.symm⟩
  | trans path path' path'' _ _ first second =>
    exact ⟨second.1.trans first.1, second.2.trans first.2⟩

/-- The names among components are all that counts where the first two components stand. -/
private theorem submoduleOf_settle {below : List Component}
    (steps : ∀ c ∈ below, c = .parent ∨ ∃ name, c = .normal name)
    (first : Component.parent ∉ below.take 2) (later : climbs 0 (below.drop 2) = false) :
    submoduleOf (settle below) =
      match below.filterMap Component.name? with
      | "modules" :: name :: _ => name
      | _ => rootModuleName := by
  -- What settles depends on the first two components, where nothing behind them climbs that far.
  match below with
  | [] => rfl
  | [c] =>
    obtain rfl | ⟨name, rfl⟩ := steps c List.mem_cons_self
    · simp at first
    · simp [settle, settleOnto, submoduleOf, Component.name?]
  | c :: d :: rest =>
    obtain rfl | ⟨directory, rfl⟩ := steps c List.mem_cons_self
    · simp at first
    obtain rfl | ⟨name, rfl⟩ := steps d (by simp)
    · simp at first
    have others : ∀ c ∈ rest, c = .parent ∨ ∃ name, c = .normal name :=
      fun c member => steps c (by simp [member])
    obtain ⟨more, kept⟩ : ∃ more, settle (.normal directory :: .normal name :: rest) =
        .normal directory :: .normal name :: more := by
      simpa [settle, settleOnto] using
        @settleOnto_append [.normal name, .normal directory] [] rest (by simp) others later
    rw [kept]
    simp only [submoduleOf, List.filterMap_cons, Component.name?]
    split
    · next modules => subst modules; rfl
    · next other => split <;> simp_all

/-- A front that only one of two relative paths has keeps the root from being a part of the path. -/
private theorem stripComponents?_of_dots_differ {path root : String}
    (placed : isAbsolute path = isAbsolute root) (differ : dotsAgree path root = false) :
    stripComponents? (components root) (components path) = none := by
  simp only [dotsAgree, Bool.or_eq_false_iff, decide_eq_false_iff_not] at differ
  obtain ⟨nonempty, unlike⟩ := differ
  have noStep : ∀ text : String, Component.current ∉ steps text := fun text member => by
    simpa using name_or_parent_of_mem_steps member
  -- Only a front can be a dot, so the first component that is read on the other side is no such dot.
  cases rootDot : startsWithDot root with
  | true =>
    have pathDot : startsWithDot path = false := by simpa [rootDot] using unlike
    have rootFront : isAbsolute root = false := isAbsolute_of_startsWithDot rootDot
    rw [components_eq root, components_eq path]
    simp only [front, placed, rootFront, rootDot, pathDot, if_true, Bool.false_eq_true, if_false,
      List.nil_append, List.singleton_append]
    cases taken : steps path with
    | nil => rfl
    | cons c rest =>
      have other : Component.current ≠ c := fun same => noStep path (by simp [taken, same])
      simp [stripComponents?, other]
  | false =>
    have pathDot : startsWithDot path = true := by simpa [rootDot] using unlike
    have pathFront : isAbsolute path = false := isAbsolute_of_startsWithDot pathDot
    rw [components_eq root] at nonempty
    rw [components_eq root, components_eq path]
    simp only [front, ← placed, pathFront, rootDot, pathDot, if_true, Bool.false_eq_true, if_false,
      List.nil_append, List.singleton_append] at nonempty ⊢
    cases taken : steps root with
    | nil => exact absurd taken nonempty
    | cons c rest =>
      have other : c ≠ Component.current := fun same => noStep root (by simp [taken, same])
      simp [stripComponents?, other]

/-- Fronts that are alike are left out on both sides. -/
private theorem names_below_of_dotsAgree {path root : String}
    (placed : isAbsolute path = isAbsolute root) (agree : dotsAgree path root = true) :
    (stripComponents? (components root) (components path)).map (·.filterMap Component.name?) =
      (stripComponents? (steps root) (steps path)).map (·.filterMap Component.name?) := by
  simp only [dotsAgree, Bool.or_eq_true, decide_eq_true_eq] at agree
  -- Either the root has no component at all, or both paths begin in the same way.
  rcases agree with empty | alike
  · have noSteps : steps root = [] := by
      rw [components_eq] at empty
      exact (List.append_eq_nil_iff.mp empty).2
    have noName : (front path).filterMap Component.name? = [] := by
      unfold front
      split
      · rfl
      · split <;> rfl
    simp [empty, noSteps, stripComponents?, components_eq path, noName]
  · have same : front path = front root := by simp only [front, placed, alike]
    rw [components_eq root, components_eq path, same]
    unfold front
    split
    · simp [stripComponents?]
    · split <;> simp [stripComponents?]

private theorem moduleName_of_dotsAgree {path root : String}
    (placed : isAbsolute path = isAbsolute root) (stand : namesStand path root = true)
    (agree : dotsAgree path root = true) : moduleName path root = lexicalModuleName path root := by
  have names := names_below_of_dotsAgree placed agree
  unfold moduleName lexicalModuleName
  cases below : stripComponents? (steps root) (steps path) with
  | none =>
    have outside : stripComponents? (components root) (components path) = none := by
      simpa [below] using names
    simp only [outside]
  | some below' =>
    obtain ⟨inside, stripped, same⟩ : ∃ inside,
        stripComponents? (components root) (components path) = some inside ∧
          inside.filterMap Component.name? = below'.filterMap Component.name? := by
      simpa [below] using names
    simp only [namesStand, below, Option.all_some, Bool.and_eq_true, decide_eq_true_eq,
      Bool.not_eq_true'] at stand
    have kinds : ∀ c ∈ below', c = .parent ∨ ∃ name, c = .normal name := fun c member =>
      name_or_parent_of_mem_steps (mem_of_stripComponents? below member)
    simp only [stripped, same]
    exact (submoduleOf_settle kinds stand.1 stand.2).symm

private theorem moduleName_of_dots_differ {path root : String}
    (placed : isAbsolute path = isAbsolute root) (differ : dotsAgree path root = false) :
    moduleName path root = rootModuleName := by
  simp only [moduleName, stripComponents?_of_dots_differ placed differ]

/-- The name of a submodule is what the path means, and so the same for every other spelling of the
path and of the root, where both have the same kind of front and no `..` takes back a name that
matters. With different fronts every path leads to the blueprint itself. -/
theorem moduleName_eq_lexicalModuleName {path root : String}
    (placed : isAbsolute path = isAbsolute root) (stand : namesStand path root = true) :
    (moduleName path root =
        if dotsAgree path root then lexicalModuleName path root else rootModuleName) ∧
      ∀ path' root', Relation.EqvGen Dotted root root' →
        Relation.EqvGen (Respelled root) path path' → namesStand path' root' = true →
        dotsAgree path root = true → dotsAgree path' root' = true →
        moduleName path' root' = moduleName path root := by
  constructor
  · cases agree : dotsAgree path root with
    | true => simpa using moduleName_of_dotsAgree placed stand agree
    | false => simpa using moduleName_of_dots_differ placed agree
  · intro path' root' dotted respelled stand' agree agree'
    obtain ⟨rootFront, rootSteps⟩ := same_of_dotted dotted
    obtain ⟨pathFront, meaning⟩ := lexicalModuleName_of_respelled respelled
    have placed' : isAbsolute path' = isAbsolute root' := by rw [pathFront, rootFront, placed]
    calc moduleName path' root'
        = lexicalModuleName path' root' := moduleName_of_dotsAgree placed' stand' agree'
      _ = lexicalModuleName path' root := by simp only [lexicalModuleName, rootSteps]
      _ = lexicalModuleName path root := meaning
      _ = moduleName path root := (moduleName_of_dotsAgree placed stand agree).symm

/-- A dot and a detour inside `./modules/run` make no difference. -/
theorem moduleName_run_respelled :
    moduleName "./modules/run" "." = "run" ∧
      moduleName "./modules/./run/main/../" "./" = "run" := by
  have dot : Respelled "." "./modules/run" "./modules/./run" := by
    simpa using Respelled.dotted (@Dotted.dot "./modules/" "run" (.inr ⟨"./modules", by decide +kernel⟩)
      (by decide +kernel))
  have slash : Respelled "." "./modules/./run" "./modules/./run/" := by
    simpa using Respelled.dotted (@Dotted.slash "./modules/./run" (by decide +kernel))
  have detour : Respelled "." "./modules/./run/" "./modules/./run/main/../" := by
    simpa using @Respelled.detour "." "./modules/./run/" "" "main"
      (.inr ⟨"./modules/./run", by decide +kernel⟩) (by decide +kernel) (by decide +kernel)
      (by decide +kernel)
  have slashed : Dotted "." "./" := by
    simpa using @Dotted.slash "." (by decide +kernel)
  have named := moduleName_eq_lexicalModuleName
    (show isAbsolute "./modules/run" = isAbsolute "." by decide +kernel) (by decide +kernel)
  have here : moduleName "./modules/run" "." = "run" := by
    rw [named.1]
    decide +kernel
  refine ⟨here, ?_⟩
  rw [← here]
  exact named.2 _ _ (.rel _ _ slashed)
    (.trans _ _ _ (.rel _ _ dot) (.trans _ _ _ (.rel _ _ slash) (.rel _ _ detour)))
    (by decide +kernel) (by decide +kernel) (by decide +kernel)

/-- The dot that stands for the working directory hides the submodule `modules/run` below it, which
a dot in front of the path brings back; and a `..` does not take back the name before it. -/
theorem moduleName_depends_on_spelling :
    (Respelled "." "modules/run" "./modules/run" ∧
      moduleName "./modules/run" "." = "run" ∧ moduleName "modules/run" "." = "root" ∧
      lexicalModuleName "modules/run" "." = "run") ∧
    (Respelled "/r" "/r/modules/y" "/r/modules/x/../y" ∧
      moduleName "/r/modules/y" "/r" = "y" ∧ moduleName "/r/modules/x/../y" "/r" = "x") := by
  have dot : Respelled "." "modules/run" "./modules/run" := by
    simpa using Respelled.dotted (@Dotted.dot "" "modules/run" (.inl rfl) (by decide +kernel))
  have detour : Respelled "/r" "/r/modules/y" "/r/modules/x/../y" := by
    simpa using @Respelled.detour "/r" "/r/modules/" "y" "x" (.inr ⟨"/r/modules", by decide +kernel⟩)
      (by decide +kernel) (by decide +kernel) (by decide +kernel)
  exact ⟨⟨dot, by decide +kernel⟩, detour, by decide +kernel⟩

end Blueprint
