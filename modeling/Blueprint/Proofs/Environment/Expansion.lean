import Blueprint.Proofs.Environment.Pieces
import Mathlib.Data.List.Chain
import Mathlib.Data.List.Flatten

/-!
# References replaced one at a time and all at once

`Environment.expand` finds the references of a text first and then replaces each of them wherever it
occurs in the text as it has become. `substituted` writes for each piece of the text what it stands
for. Both give the same where no replacement touches anything but the reference it is for
(`Independent`). What carries the proof is that the text at any time is the text as it was given
with some references expanded (`shown`): a replacement expands one more.
-/

namespace Blueprint

namespace Text

variable {more value : List Char}

private theorem replaceFrom_covered (piece value text rest : List Char) :
    replaceFrom piece value text.length (text ++ rest) = replaceFrom piece value 0 rest := by
  induction text with
  | nil => rfl
  | cons c text ih => simpa [replaceFrom] using ih

private theorem replaceAll_here (first : Char) (more value rest : List Char) :
    replaceAll (first :: more) value (first :: more ++ rest) =
      value ++ replaceAll (first :: more) value rest := by
  have found : (first :: more).isPrefixOf (first :: (more ++ rest)) = true :=
    List.isPrefixOf_iff_prefix.mpr ⟨rest, rfl⟩
  simp only [replaceAll, List.cons_append, replaceFrom, found, if_true, List.length_cons,
    Nat.add_sub_cancel, replaceFrom_covered]

private theorem replaceAll_cons_of_not_starts {piece : List Char} {c : Char} {rest : List Char}
    (absent : ¬piece <+: c :: rest) :
    replaceAll piece value (c :: rest) = c :: replaceAll piece value rest := by
  have notFound : piece.isPrefixOf (c :: rest) = false := by
    simpa [← List.isPrefixOf_iff_prefix] using absent
  simp [replaceAll, replaceFrom, notFound]

/-- An occurrence does not start before the character that it starts with. -/
private theorem replaceAll_append {first : Char} {text : List Char} (absent : first ∉ text)
    (rest : List Char) :
    replaceAll (first :: more) value (text ++ rest) =
      text ++ replaceAll (first :: more) value rest := by
  induction text with
  | nil => rfl
  | cons c text ih =>
    have other : first ≠ c := fun same => absent (by simp [same])
    have behind : ¬(first :: more) <+: c :: (text ++ rest) := fun found =>
      other (List.cons_prefix_cons.mp found).1
    rw [List.cons_append, replaceAll_cons_of_not_starts behind,
      ih (fun member => absent (List.mem_cons_of_mem _ member)), List.cons_append]

end Text

namespace Environment

/-! ## Texts in which references keep apart -/

/-- A variable is set. -/
def isSet (env : Environment) (name : List Char) : Prop :=
  (env.get? (String.ofList name)).isSome

instance (env : Environment) (name : List Char) : Decidable (isSet env name) :=
  inferInstanceAs (Decidable (_ = true))

/-- A piece does not make a reference together with the value of the piece behind it: no dollar sign
stands before a value, and no name that a value could make longer. -/
def Parted (env : Environment) (names : List (List Char)) (piece next : Piece) : Prop :=
  (next.value? env).isSome → piece ≠ .char '$' ∧
    ∀ name ∈ piece.bareName?, ∀ longer ∈ names, isSet env longer → name <+: longer → longer = name

instance (env : Environment) (names : List (List Char)) (piece next : Piece) :
    Decidable (Parted env names piece next) :=
  inferInstanceAs (Decidable (_ → _ ∧ _))

/-- Replacing one reference of a text touches no other one. -/
structure Independent (env : Environment) (ps : List Piece) : Prop where
  /-- No value brings a dollar sign into the text. -/
  values : ∀ piece ∈ ps, '$' ∉ (piece.value? env).getD []
  /-- No reference stands in the braces of another one. -/
  names : ∀ name ∈ bracedIn ps, '$' ∉ name
  /-- Before a name is replaced, every longer name that starts with it has been. -/
  longerFirst : ∀ name ∈ bareIn ps, isSet env name → ∀ longer ∈ bareIn ps, name <+: longer →
    longer = name ∨ isSet env longer ∧ (bareIn ps).idxOf longer < (bareIn ps).idxOf name
  parted : List.IsChain (Parted env (bareIn ps)) ps

/-- A piece at a time when the references in `done` have been replaced. -/
def shown (env : Environment) (done : List Piece) (piece : Piece) : List Char :=
  if piece ∈ done then piece.expanded env else piece.written

variable {env : Environment} {done ps rest : List Piece} {text : List Char}

private theorem shown_of_not_mem {piece : Piece} (pending : piece ∉ done) :
    shown env done piece = piece.written :=
  if_neg pending

private theorem shown_of_value?_eq_none {piece : Piece} (unset : piece.value? env = none) :
    shown env done piece = piece.written := by
  simp [shown, Piece.expanded, unset]

@[simp] theorem shown_char (c : Char) : shown env done (.char c) = [c] :=
  shown_of_value?_eq_none rfl

/-- A piece is shown as its value or as it is written. -/
private theorem shown_cases (env : Environment) (done : List Piece) (piece : Piece) :
    (∃ value, piece ∈ done ∧ piece.value? env = some value ∧ shown env done piece = value) ∨
      ((piece ∈ done → piece.value? env = none) ∧ shown env done piece = piece.written) := by
  by_cases member : piece ∈ done
  · cases value : piece.value? env with
    | none => exact .inr ⟨fun _ => rfl, shown_of_value?_eq_none value⟩
    | some text => exact .inl ⟨text, member, rfl, by simp [shown, member, Piece.expanded, value]⟩
  · exact .inr ⟨fun done => absurd done member, shown_of_not_mem member⟩

private theorem shown_cons_of_ne {piece other : Piece} (different : piece ≠ other) :
    shown env (other :: done) piece = shown env done piece := by
  simp [shown, different]

/-- Where no value comes first, a text starts as it was written. -/
private theorem head?_flatMap_shown (done : List Piece) (scan : Scan text ps)
    (unset : ∀ next ∈ ps.head?, next.value? env = none) :
    (ps.flatMap (shown env done)).head? = text.head? := by
  cases scan with
  | nil => rfl
  | braced _ _ _ =>
    simp [shown_of_value?_eq_none (unset _ rfl), Piece.written, Environment.braced]
  | bare _ _ _ _ =>
    simp [shown_of_value?_eq_none (unset _ rfl), Piece.written, Environment.bare]
  | char _ _ => simp [shown_of_value?_eq_none (unset _ rfl), Piece.written]

/-- The first piece behind another one is no value, where the two must keep apart. -/
private theorem unset_next {names : List (List Char)} {piece : Piece}
    (chain : List.IsChain (Parted env names) (piece :: rest))
    (apart : piece = .char '$' ∨ ∃ name longer, piece = .bare name ∧ longer ∈ names ∧
      isSet env longer ∧ name <+: longer ∧ longer ≠ name) :
    ∀ next ∈ rest.head?, next.value? env = none := by
  intro next here
  cases rest with
  | nil => cases here
  | cons next' rest =>
    obtain rfl : next' = next := by simpa using here
    have parted : Parted env names piece next' := (List.isChain_cons_cons.mp chain).1
    cases value : next'.value? env with
    | none => rfl
    | some value =>
      obtain ⟨notDollar, whole⟩ := parted (by simp [value])
      rcases apart with dollar | ⟨name, longer, rfl, member, set, starts, different⟩
      · exact absurd dollar notDollar
      · exact absurd (whole name rfl longer member set starts) different

/-- One replacement, where each piece either is the reference that is replaced, or has no dollar
sign, or starts with the only one it has and is not what is looked for. -/
private theorem replaceAll_flatMap {more value : List Char} {before after : Piece → List Char}
    (each : ∀ piece rest, piece :: rest <:+ ps →
      (before piece = '$' :: more ∧ after piece = value) ∨
      (after piece = before piece ∧
        ('$' ∉ before piece ∨ ∃ tail, before piece = '$' :: tail ∧ '$' ∉ tail ∧
          ¬more <+: tail ++ rest.flatMap before))) :
    Text.replaceAll ('$' :: more) value (ps.flatMap before) = ps.flatMap after := by
  induction ps with
  | nil => rfl
  | cons piece ps ih =>
    have others := ih fun piece' rest suffix =>
      each piece' rest (suffix.trans (List.suffix_cons piece ps))
    rw [List.flatMap_cons, List.flatMap_cons, ← others]
    -- The piece is what is replaced, or it is passed over: up to its dollar sign, if it has one,
    -- and then behind that.
    rcases each piece ps List.suffix_rfl with
      ⟨found, replaced⟩ | ⟨same, absent | ⟨tail, starts, once, other⟩⟩
    · rw [found, replaced, Text.replaceAll_here]
    · rw [same, Text.replaceAll_append absent]
    · have behind : ¬('$' :: more) <+: '$' :: (tail ++ ps.flatMap before) := fun found =>
        other (List.cons_prefix_cons.mp found).2
      rw [same, starts, List.cons_append, Text.replaceAll_cons_of_not_starts behind,
        Text.replaceAll_append once, List.cons_append]

/-- A piece has a dollar sign only at its front. -/
private theorem written_cases (scan : Scan text (piece :: rest))
    (names : ∀ name, piece = .braced name → '$' ∉ name) :
    '$' ∉ piece.written ∨ ∃ tail, piece.written = '$' :: tail ∧ '$' ∉ tail := by
  cases scan with
  | @braced name _ _ _ _ _ => exact .inr ⟨_, rfl, by simpa using names name rfl⟩
  | bare start parts _ _ => exact .inr ⟨_, rfl, dollar_not_mem_bare start parts⟩
  | @char c _ _ _ _ =>
    by_cases dollar : c = '$'
    · exact .inr ⟨[], by simp [Piece.written, dollar], by simp⟩
    · exact .inl (by simpa [Piece.written] using fun same : '$' = c => dollar same.symm)

/-- Names in braces that start alike are the same. -/
private theorem eq_of_starts_braced {name other rest : List Char} (ends : '\x7d' ∉ name)
    (ends' : '\x7d' ∉ other)
    (starts : name ++ ['\x7d'] <+: other ++ '\x7d' :: rest) : name = other := by
  obtain ⟨more, same⟩ := starts
  rw [← takeWhile_closing ends more, ← takeWhile_closing ends' rest, ← same]
  simp

/-- While no reference without braces has been replaced, a text in which no braces are closed stands
as it was written. -/
private theorem flatMap_shown_of_not_closing (scan : Scan text ps)
    (pending : ∀ other, .bare other ∉ done)
    (never : '\x7d' ∉ text) : ps.flatMap (shown env done) = text := by
  have asWritten : ∀ piece ∈ ps, shown env done piece = piece.written := by
    intro piece member
    cases piece with
    | char c => exact shown_of_value?_eq_none rfl
    | bare other => exact shown_of_not_mem (pending other)
    | braced other =>
      refine absurd ?_ never
      rw [← scan.written]
      exact List.mem_flatMap.mpr ⟨_, member, by simp [Piece.written, Environment.braced]⟩
  rw [List.flatMap_congr asWritten, scan.written]

/-- While no reference without braces has been replaced, a reference in braces only starts where it
was written. -/
private theorem not_starts_braced {names : List (List Char)} {name tail : List Char} {piece : Piece}
    (scan : Scan text (piece :: rest)) (chain : List.IsChain (Parted env names) (piece :: rest))
    (pending : ∀ other, .bare other ∉ done) (nonempty : name ≠ []) (ends : '\x7d' ∉ name)
    (starts : piece.written = '$' :: tail) (different : piece ≠ .braced name) :
    ¬('\x7b' :: name ++ ['\x7d']) <+: tail ++ rest.flatMap (shown env done) := by
  intro found
  cases scan with
  | @braced other after _ _ ends' inner =>
    obtain rfl : '\x7b' :: other ++ ['\x7d'] = tail := by
      simpa [Piece.written, Environment.braced] using starts
    have inside : name ++ ['\x7d'] <+: other ++ '\x7d' :: rest.flatMap (shown env done) := by
      simpa [List.cons_prefix_cons] using found
    exact different (by rw [eq_of_starts_braced ends ends' inside])
  | @bare first parts after _ start _ _ inner =>
    obtain rfl : first :: parts = tail := by
      simpa [Piece.written, Environment.bare] using starts
    obtain rfl : '\x7b' = first := (List.cons_prefix_cons.mp found).1
    exact absurd start (by decide)
  | @char c after _ plain inner =>
    -- A dollar sign that starts no reference. What follows it is shown as it stands, so an opening brace
    -- is one of the text, which is closed at once or never.
    obtain ⟨rfl, rfl⟩ : c = '$' ∧ [] = tail := by simpa [Piece.written] using starts
    have unset := unset_next chain (.inl rfl)
    have head := head?_flatMap_shown done inner unset
    obtain ⟨more, same⟩ := found
    obtain ⟨after', rfl⟩ : ∃ after', after = '\x7b' :: after' := by
      rw [List.nil_append] at same
      rw [← same] at head
      cases after with
      | nil => simp at head
      | cons d after' => exact ⟨after', by simpa using head.symm⟩
    obtain ⟨rest', rfl, inner'⟩ := inner.of_ne_dollar (by decide)
    have whole : name ++ '\x7d' :: more = rest'.flatMap (shown env done) := by
      simpa using same
    rcases bracedName?_eq_none (plain rfl).1 with atOnce | never
    · obtain ⟨after'', rfl⟩ : ∃ after'', after' = '\x7d' :: after'' := by
        cases after' with
        | nil => simp at atOnce
        | cons d after'' => exact ⟨after'', by simpa using atOnce⟩
      obtain ⟨rest'', rfl, -⟩ := inner'.of_ne_dollar (by decide)
      have closing : (name ++ '\x7d' :: more).head? = some '\x7d' := by
        simp [whole]
      cases name with
      | nil => exact nonempty rfl
      | cons d name => exact ends (by simpa using .inl (Option.some.inj closing).symm)
    · rw [flatMap_shown_of_not_closing inner' pending never] at whole
      exact never (by simp [← whole])

/-- A reference without braces only starts where it was written, once the longer names that start
with its name have been replaced. -/
private theorem not_starts_bare {names : List (List Char)} {name tail : List Char} {piece : Piece}
    (scan : Scan text (piece :: rest)) (chain : List.IsChain (Parted env names) (piece :: rest))
    {first : Char} {parts : List Char} (named : name = first :: parts) (start : isNameStart first)
    (all : ∀ c ∈ parts, isNamePart c) (member : name ∈ names) (set : isSet env name)
    (starts : piece.written = '$' :: tail)
    (different : ∀ other, piece = .bare other → ¬name <+: other) :
    ¬name <+: tail ++ rest.flatMap (shown env done) := by
  intro found
  cases scan with
  | @braced other after _ _ _ _ =>
    obtain rfl : '\x7b' :: other ++ ['\x7d'] = tail := by
      simpa [Piece.written, Environment.braced] using starts
    subst named
    obtain rfl : first = '\x7b' := (List.cons_prefix_cons.mp found).1
    exact absurd start (by decide)
  | @bare first' parts' after _ start' _ longest inner =>
    obtain rfl : first' :: parts' = tail := by
      simpa [Piece.written, Environment.bare] using starts
    have notStart := different _ rfl
    rcases List.prefix_or_prefix_of_prefix found (List.prefix_append _ _) with shorter | longer
    · exact notStart shorter
    · -- The name would go on behind this one, with a character that ends this one.
      obtain ⟨extra, rfl⟩ := longer
      have whole : first' :: parts' ++ extra ≠ first' :: parts' := fun same =>
        notStart ⟨[], (List.append_nil _).trans same⟩
      have head := head?_flatMap_shown done inner
        (unset_next chain (.inr ⟨_, _, rfl, member, set, List.prefix_append _ extra, whole⟩))
      obtain ⟨more, same⟩ := (List.prefix_append_right_inj _).mp found
      cases extra with
      | nil => simp at whole
      | cons c extra =>
        have part : isNamePart c := by
          obtain ⟨-, inside⟩ := List.cons.inj named
          exact all c (by simp [← inside])
        rw [← same] at head
        exact absurd part (by simp [longest c (by simp [← head])])
  | @char c after _ plain inner =>
    obtain ⟨rfl, rfl⟩ : c = '$' ∧ [] = tail := by simpa [Piece.written] using starts
    have head := head?_flatMap_shown done inner (unset_next chain (.inl rfl))
    obtain ⟨more, same⟩ := found
    rw [List.nil_append] at same
    rw [← same, named] at head
    have unnamed := (plain rfl).2
    cases after with
    | nil => simp at head
    | cons d after' =>
      obtain rfl : first = d := by simpa using head
      simp [bareName?, start] at unnamed

/-! ## One replacement, and all of them -/

private theorem shown_cons_of_unset {piece : Piece} (unset : piece.value? env = none) :
    shown env (piece :: done) = shown env done := by
  funext other
  by_cases same : other = piece
  · subst same
    rw [shown_of_value?_eq_none unset, shown_of_value?_eq_none unset]
  · exact shown_cons_of_ne same

/-- Replacing what a reference is written as expands that reference and nothing else, where it
starts nowhere else in the text. -/
private theorem replaceAll_shown {piece : Piece} {more value : List Char} (scan : Scan text ps)
    (apart : Independent env ps) (written : piece.written = '$' :: more)
    (set : piece.value? env = some value)
    (elsewhere : ∀ other rest tail, other :: rest <:+ ps → other ≠ piece →
      other.written = '$' :: tail → (other ∈ done → other.value? env = none) →
      ¬more <+: tail ++ rest.flatMap (shown env done)) :
    Text.replaceAll ('$' :: more) value (ps.flatMap (shown env done)) =
      ps.flatMap (shown env (piece :: done)) := by
  apply replaceAll_flatMap
  intro other rest suffix
  have member : other ∈ ps := suffix.subset List.mem_cons_self
  have valueApart : ∀ value, other.value? env = some value → '$' ∉ value := fun value set => by
    simpa [set] using apart.values other member
  -- A piece is the reference itself, which shows its value already or is replaced now, or another
  -- one, which stays, since the reference starts nowhere in what it is shown as.
  by_cases same : other = piece
  · subst same
    have expanded : shown env (other :: done) other = value := by
      simp [shown, Piece.expanded, set]
    by_cases already : other ∈ done
    · have before : shown env done other = value := by simp [shown, already, Piece.expanded, set]
      exact .inr ⟨by rw [expanded, before], .inl (before ▸ valueApart value set)⟩
    · exact .inl ⟨by rw [shown_of_not_mem already, written], expanded⟩
  · refine .inr ⟨shown_cons_of_ne same, ?_⟩
    rcases shown_cases env done other with ⟨value, -, set, asValue⟩ | ⟨unset, asWritten⟩
    · exact .inl (asValue ▸ valueApart value set)
    · obtain ⟨text', here⟩ := scan.suffix suffix
      have names : ∀ name, other = .braced name → '$' ∉ name := fun name same =>
        apart.names name (mem_bracedIn.mpr (same ▸ member))
      rw [asWritten]
      rcases written_cases here names with absent | ⟨tail, starts, once⟩
      · exact .inl absent
      · exact .inr ⟨tail, starts, once, elsewhere other rest tail suffix same starts unset⟩

private theorem replaceReference_braced {name : List Char} (scan : Scan text ps)
    (apart : Independent env ps)
    (pending : ∀ other, .bare other ∉ done) (member : .braced name ∈ ps) :
    replaceReference env braced (ps.flatMap (shown env done)) name =
      ps.flatMap (shown env (.braced name :: done)) := by
  unfold replaceReference
  cases value : env.get? (String.ofList name) with
  | none => rw [shown_cons_of_unset (by simp [Piece.value?, value])]
  | some value =>
    refine replaceAll_shown scan apart rfl
      (by simp [Piece.value?, value]) ?_
    intro other rest tail suffix different starts _
    obtain ⟨text', here⟩ := scan.suffix suffix
    obtain ⟨nonempty, ends⟩ := scan.of_braced member
    exact not_starts_braced here (apart.parted.suffix suffix) pending nonempty ends starts different

private theorem mem_of_idxOf_lt {before after : List (List Char)} {name other : List Char}
    (earlier : (before ++ name :: after).idxOf other < (before ++ name :: after).idxOf name) :
    other ∈ before := by
  by_contra absent
  have late : (before ++ name :: after).idxOf other = before.length + (name :: after).idxOf other :=
    List.idxOf_append_of_notMem absent
  by_cases member : name ∈ before
  · have soon : (before ++ name :: after).idxOf name = before.idxOf name :=
      List.idxOf_append_of_mem member
    have inside := List.idxOf_lt_length_of_mem member
    omega
  · have here : (before ++ name :: after).idxOf name = before.length := by
      rw [List.idxOf_append_of_notMem member, List.idxOf_cons_self, Nat.add_zero]
    omega

private theorem replaceReference_bare {before after : List (List Char)} {name : List Char}
    (scan : Scan text ps) (apart : Independent env ps) (names : bareIn ps = before ++ name :: after)
    (replaced : ∀ earlier ∈ before, .bare earlier ∈ done) :
    replaceReference env bare (ps.flatMap (shown env done)) name =
      ps.flatMap (shown env (.bare name :: done)) := by
  unfold replaceReference
  cases value : env.get? (String.ofList name) with
  | none => rw [shown_cons_of_unset (by simp [Piece.value?, value])]
  | some value =>
    have found : name ∈ bareIn ps := by simp [names]
    have set : isSet env name := by simp [isSet, value]
    refine replaceAll_shown scan apart rfl (by simp [Piece.value?, value]) ?_
    intro other rest tail suffix different starts unset
    obtain ⟨text', here⟩ := scan.suffix suffix
    obtain ⟨first, parts, named, start, all⟩ := scan.of_bare (mem_bareIn.mp found)
    refine not_starts_bare here (apart.parted.suffix suffix) named start all found set starts ?_
    -- A longer name has been replaced before, and so its reference is shown as a value.
    rintro longer rfl starts'
    have member : longer ∈ bareIn ps := mem_bareIn.mpr (suffix.subset List.mem_cons_self)
    rcases apart.longerFirst name found set longer member starts' with same | ⟨set', first'⟩
    · exact different (by rw [same])
    · have earlier : longer ∈ before := mem_of_idxOf_lt (by rwa [names] at first')
      have absent : env.get? (String.ofList longer) = none := by
        simpa [Piece.value?] using unset (replaced longer earlier)
      simp [isSet, absent] at set'

/-- Replacing the references in braced one after another expands them. -/
private theorem foldl_replaceReference_braced {names : List (List Char)} (scan : Scan text ps)
    (apart : Independent env ps) (pending : ∀ other, .bare other ∉ done) (found : names ⊆ bracedIn ps) :
    names.foldl (replaceReference env braced) (ps.flatMap (shown env done)) =
      ps.flatMap (shown env ((names.map .braced).reverse ++ done)) := by
  induction names generalizing done with
  | nil => rfl
  | cons name names ih =>
    obtain ⟨member, others⟩ := List.cons_subset.mp found
    rw [List.foldl_cons, replaceReference_braced scan apart pending (mem_bracedIn.mp member),
      ih (fun other => by simpa using pending other) others]
    simp

/-- So does replacing those without braces, after the names that came before. -/
private theorem foldl_replaceReference_bare {before names : List (List Char)} (scan : Scan text ps)
    (apart : Independent env ps) (found : bareIn ps = before ++ names)
    (replaced : ∀ earlier ∈ before, .bare earlier ∈ done) :
    names.foldl (replaceReference env bare) (ps.flatMap (shown env done)) =
      ps.flatMap (shown env ((names.map .bare).reverse ++ done)) := by
  induction names generalizing before done with
  | nil => rfl
  | cons name names ih =>
    have grown : ∀ earlier ∈ before ++ [name], Piece.bare earlier ∈ Piece.bare name :: done := by
      intro earlier member
      rcases List.mem_append.mp member with before | last
      · exact List.mem_cons_of_mem _ (replaced earlier before)
      · obtain rfl := List.mem_singleton.mp last
        exact List.mem_cons_self
    rw [List.foldl_cons, replaceReference_bare scan apart found replaced,
      ih (by simpa using found) grown]
    simp

/-- Both rounds of replacements together expand every piece. -/
private theorem expand_eq_of_scan (scan : Scan text ps) (apart : Independent env ps) :
    (bareNames text).foldl (replaceReference env bare)
        ((bracedNames false text).foldl (replaceReference env braced) text) =
      ps.flatMap (Piece.expanded env) := by
  have start : text = ps.flatMap (shown env []) := by
    have asWritten : ps.flatMap Piece.written = ps.flatMap (shown env []) :=
      List.flatMap_congr fun piece _ => (shown_of_not_mem List.not_mem_nil).symm
    rw [← asWritten, scan.written]
  -- First the references in braces are replaced, all at once as it were; then the bare ones in what
  -- that leaves.
  have once : (bracedNames false text).foldl (replaceReference env braced) text =
      ps.flatMap (shown env ((bracedIn ps).map .braced).reverse) := by
    rw [scan.bracedNames_eq]
    conv_lhs => rw [start]
    simpa using foldl_replaceReference_braced scan apart (fun _ => List.not_mem_nil)
      (List.Subset.refl (bracedIn ps))
  rw [once, scan.bareNames_eq apart.names,
    foldl_replaceReference_bare scan apart (List.nil_append _).symm
      fun _ absent => absurd absent List.not_mem_nil]
  -- Now every reference is done, so each piece is shown as what it expands to.
  refine List.flatMap_congr fun piece member => ?_
  cases piece with
  | char c => rw [shown_char]; rfl
  | braced name => simp [shown, mem_bracedIn, member]
  | bare name => simp [shown, mem_bareIn, member]

/-- Where references keep apart, expanding a text replaces each reference that a reader finds from
left to right by the value of its variable, and leaves those to variables that are not set, and all
other text, as they are written. -/
theorem expand_eq_substituted {env : Environment} {text : String}
    (apart : Independent env (pieces text.toList)) : env.expand text = substituted env text := by
  have expanded := expand_eq_of_scan (scan_pieces text.toList) apart
  unfold expand substituted
  exact congrArg String.ofList expanded

/-- Two variables, one whose name starts with the other's, and one that is not set. -/
theorem expand_longer_name_first :
    Environment.expand (.ofList [("HOME", "/home"), ("HOME_DIR", "/srv")])
        "$HOME_DIR:${HOME}:$UNSET:$HOME: $5" = "/srv:/home:$UNSET:/home: $5" := by
  rw [expand_eq_substituted
    ⟨by decide +kernel, by decide +kernel, by decide +kernel, by decide +kernel⟩]
  decide +kernel

/-- A variable that is set is replaced inside the name of one that is not. -/
theorem expand_replaces_inside_unset :
    Environment.expand (.ofList [("A", "x")]) "terraform_binary: $AB-$A" = "terraform_binary: xB-x" ∧
      substituted (.ofList [("A", "x")]) "terraform_binary: $AB-$A" = "terraform_binary: $AB-x" := by
  decide +kernel

end Environment
end Blueprint
