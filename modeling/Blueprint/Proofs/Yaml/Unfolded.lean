import Blueprint.Proofs.Yaml.Folding
import Mathlib.Data.List.Induction

/-!
# Texts in which nothing is folded

A reader folds a text to itself exactly if the line ends in it are of a kind that is kept, no blank
stands beside one of them, and no mark of a document directly behind one (`folded?_eq_self_iff`). A
text is taken apart into words and the gaps between them; nothing gets longer by folding, so where
the whole is kept, so is every gap.
-/

namespace Blueprint.Yaml

open Printer (holdsPair)

/-- Whether the mark of a document stands directly behind a line end. -/
def breaksBeforeMark : List Char → Bool
  | [] => false
  | c :: text => (isBareBreak c && opensDocument text) || breaksBeforeMark text

/-- A text in which a reader folds nothing. -/
@[mk_iff]
structure Unfolded (text : List Char) : Prop where
  kept : '\x85' ∉ text
  noBlankBefore : holdsPair (· == ' ') isBareBreak text = false
  noBlankBehind : holdsPair isBareBreak (· == ' ') text = false
  noMark : breaksBeforeMark text = false

/-! ## Pairs and marks -/

private theorem holdsPair_word {first second : Char → Bool} {word : List Char}
    (noFirst : ∀ c ∈ word, first c = false) (text : List Char) :
    holdsPair first second (word ++ text) = holdsPair first second text := by
  induction word with
  | nil => rfl
  | cons c word ih =>
    obtain ⟨noFirst, others⟩ := List.forall_mem_cons.mp noFirst
    rw [List.cons_append, ← ih others]
    cases word ++ text with
    | nil => rfl
    | cons d rest => simp [holdsPair, noFirst]

private theorem holdsPair_append_stop {first second : Char → Bool} (run : List Char)
    {text : List Char}
    (stop : ∀ c ∈ text.head?, second c = false) :
    holdsPair first second (run ++ text) =
      (holdsPair first second run || holdsPair first second text) := by
  induction run with
  | nil => simp [holdsPair]
  | cons c run ih =>
    cases run with
    | nil =>
      cases text with
      | nil => rfl
      | cons d text => simp [holdsPair, stop d rfl]
    | cons d run =>
      rw [List.cons_append] at ih
      simp only [List.cons_append, holdsPair, ih, Bool.or_assoc]

private theorem opensDocument_gap {c : Char} (gap : isGap c = true) (text : List Char) :
    opensDocument (c :: text) = false := by
  rcases isGap_iff.mp gap with rfl | rfl | rfl | rfl <;> simp [opensDocument]

private theorem breaksBeforeMark_word {word : List Char}
    (noBreak : ∀ c ∈ word, isBareBreak c = false)
    (text : List Char) : breaksBeforeMark (word ++ text) = breaksBeforeMark text := by
  induction word with
  | nil => rfl
  | cons c word ih =>
    obtain ⟨noBreak, others⟩ := List.forall_mem_cons.mp noBreak
    rw [List.cons_append, breaksBeforeMark, ih others, noBreak]
    simp

/-- Of a run only the end can stand directly before a mark. -/
private theorem breaksBeforeMark_run {run : List Char} (gaps : ∀ c ∈ run, isGap c = true)
    (text : List Char) : breaksBeforeMark (run ++ text) =
      (Gap.endsLine run && opensDocument text || breaksBeforeMark text) := by
  induction run with
  | nil => simp [Gap.endsLine]
  | cons c run ih =>
    obtain ⟨-, others⟩ := List.forall_mem_cons.mp gaps
    rw [List.cons_append, breaksBeforeMark, ih others]
    cases run with
    | nil => simp [Gap.endsLine]
    | cons d run =>
      have noMark := opensDocument_gap (others d List.mem_cons_self) (run ++ text)
      simp [noMark, Gap.endsLine]

private theorem blank_eq {c : Char} (gap : isGap c = true) : (c == ' ') = !isBareBreak c := by
  rcases isGap_iff.mp gap with rfl | rfl | rfl | rfl <;> rfl

/-- In a run no blank meets a line end if all are of one kind. -/
private theorem holdsPair_run_iff {run : List Char} (gaps : ∀ c ∈ run, isGap c = true) :
    (holdsPair (· == ' ') isBareBreak run = false ∧ holdsPair isBareBreak (· == ' ') run = false) ↔
      (∀ c ∈ run, isBareBreak c = false) ∨ ∀ c ∈ run, isBareBreak c = true := by
  induction run with
  | nil => simp [holdsPair]
  | cons c run ih =>
    obtain ⟨gap, others⟩ := List.forall_mem_cons.mp gaps
    cases run with
    | nil => simp [holdsPair]
    | cons d run =>
      have ih := ih others
      simp only [List.forall_mem_cons] at ih ⊢
      simp only [holdsPair, Bool.or_eq_false_iff, blank_eq gap,
        blank_eq (others d List.mem_cons_self)]
      cases bare : isBareBreak c <;> cases bare' : isBareBreak d <;> simp_all

/-! ## Gaps -/

private theorem keptBreak_ne (c : Char) : keptBreak c ≠ '\x85' := by
  unfold keptBreak
  split
  · decide
  · assumption

namespace Gap

private theorem ofRun_append (front run : List Char) :
    ofRun (front ++ run) = run.foldl take (ofRun front) :=
  List.foldl_append

/-- The gap of a run is told by the line ends in it; without one it is the blanks. -/
private theorem ofRun_eq (run : List Char) :
    ofRun run = match run.filter isBareBreak with
      | [] => { blanks := run }
      | c :: more => { broken := true, first := [keptBreak c], more := more.map keptBreak } := by
  induction run using List.reverseRecOn with
  | nil => rfl
  | append_singleton run c ih =>
    rw [ofRun_append, ih, List.filter_append]
    cases bare : isBareBreak c with
    | false =>
      rw [List.filter_cons_of_neg (by simp [bare])]
      cases run.filter isBareBreak <;> simp [take, bare]
    | true =>
      rw [List.filter_cons_of_pos bare]
      cases run.filter isBareBreak <;> simp [take, bare]

/-- A gap with line ends has no other characters. -/
private theorem length_folded_ofRun_broken {run : List Char}
    (broken : run.filter isBareBreak ≠ []) :
    (ofRun run).folded.length ≤ (run.filter isBareBreak).length := by
  obtain ⟨c, more, breaks⟩ := List.exists_cons_of_ne_nil broken
  rw [ofRun_eq, breaks]
  simp only [folded, if_true]
  split
  · split <;> simp
  · simp

private theorem folded_ofRun_blanks {run : List Char} (unbroken : run.filter isBareBreak = []) :
    (ofRun run).folded = run := by
  rw [ofRun_eq, unbroken]
  rfl

private theorem length_folded_ofRun (run : List Char) : (ofRun run).folded.length ≤ run.length := by
  by_cases broken : run.filter isBareBreak = []
  · exact Nat.le_of_eq (congrArg List.length (folded_ofRun_blanks broken))
  · exact Nat.le_trans (length_folded_ofRun_broken broken) (List.length_filter_le _ _)

private theorem folded_ofRun_ne_nil {run : List Char} (nonempty : run ≠ []) :
    (ofRun run).folded ≠ [] := by
  by_cases broken : run.filter isBareBreak = []
  · rwa [folded_ofRun_blanks broken]
  · obtain ⟨c, more, breaks⟩ := List.exists_cons_of_ne_nil broken
    rw [ofRun_eq, breaks]
    simp only [folded, if_true]
    split
    · split <;> simp_all
    · simp

/-- A gap has none of the line ends that are not kept. -/
private theorem not_mem_folded_ofRun {run : List Char} (broken : run.filter isBareBreak ≠ []) :
    '\x85' ∉ (ofRun run).folded := by
  obtain ⟨c, more, breaks⟩ := List.exists_cons_of_ne_nil broken
  have others : '\x85' ∉ more.map keptBreak := by
    rw [List.mem_map]
    rintro ⟨d, -, same⟩
    exact keptBreak_ne d same
  rw [ofRun_eq, breaks]
  simp only [folded, if_true]
  split
  · split
    · decide
    · exact others
  · simp [others, (keptBreak_ne c).symm]

/-- A run is kept as it is if it consists of blanks, or of line ends that are kept. -/
private theorem folded_ofRun_eq_self_iff {run : List Char} (gaps : ∀ c ∈ run, isGap c = true) :
    (ofRun run).folded = run ↔
      '\x85' ∉ run ∧ holdsPair (· == ' ') isBareBreak run = false ∧
        holdsPair isBareBreak (· == ' ') run = false := by
  rw [holdsPair_run_iff gaps]
  by_cases broken : run.filter isBareBreak = []
  · have noBreak : ∀ c ∈ run, isBareBreak c = false := by simpa using broken
    have noNext : '\x85' ∉ run := fun member => absurd (noBreak _ member) (by decide)
    exact ⟨fun _ => ⟨noNext, .inl noBreak⟩, fun _ => folded_ofRun_blanks broken⟩
  · constructor
    · -- What is read has one character for each line end, so the run has no other ones.
      intro same
      have long := length_folded_ofRun_broken broken
      rw [same] at long
      have allBreaks := List.length_filter_eq_length_iff.mp
        (Nat.le_antisymm (List.length_filter_le isBareBreak run) long)
      exact ⟨fun member => not_mem_folded_ofRun broken (same.symm ▸ member), .inr allBreaks⟩
    · rintro ⟨noNext, noBreak | allBreaks⟩
      · exact absurd (List.filter_eq_nil_iff.mpr fun c member => by simp [noBreak c member]) broken
      · have themselves : ∀ c ∈ run, keptBreak c = c := fun c member =>
          if_neg fun (isNext : c = '\x85') => noNext (isNext ▸ member)
        rw [ofRun_eq, List.filter_eq_self.mpr allBreaks]
        cases run with
        | nil => rfl
        | cons c more =>
          -- The first line end would be dropped if it were read as a line feed.
          obtain ⟨itself, others⟩ := List.forall_mem_cons.mp themselves
          have noFeed : c ≠ '\n' := by
            rintro rfl
            exact absurd (allBreaks '\n' List.mem_cons_self) (by decide)
          have more := (List.map_congr_left others).trans (List.map_id _)
          simpa [folded, itself, noFeed] using more

end Gap

/-! ## Texts -/

private theorem length_foldedFrom? {run text folded : List Char}
    (found : foldedFrom? run text = some folded) :
    folded.length ≤ run.length + text.length := by
  -- The run is what was passed since the last word, and folding only shortens it.
  induction text generalizing run folded with
  | nil =>
    cases found
    exact Gap.length_folded_ofRun run
  | cons c text ih =>
    rw [foldedFrom?] at found
    split at found
    · have shorter := ih found
      simp only [List.length_append, List.length_cons, List.length_nil] at shorter ⊢
      omega
    · split at found
      · cases found
      · obtain ⟨others, read, rfl⟩ := Option.map_eq_some_iff.mp found
        have shorter := ih read
        have gap := Gap.length_folded_ofRun run
        simp only [List.length_append, List.length_cons, List.length_nil] at shorter ⊢
        omega

private theorem foldedFrom?_ne_nil {run text folded : List Char}
    (found : foldedFrom? run text = some folded)
    (nonempty : run ≠ [] ∨ text ≠ []) : folded ≠ [] := by
  induction text generalizing run folded with
  | nil =>
    cases found
    exact Gap.folded_ofRun_ne_nil (nonempty.resolve_right fun no => no rfl)
  | cons c text ih =>
    rw [foldedFrom?] at found
    split at found
    · exact ih found (.inl (by simp))
    · split at found
      · cases found
      · obtain ⟨others, -, rfl⟩ := Option.map_eq_some_iff.mp found
        simp

private theorem folded?_nil : folded? [] = some [] := rfl

/-- Only nothing is folded to nothing. -/
theorem folded?_eq_some_nil_iff {text : List Char} : folded? text = some [] ↔ text = [] := by
  refine ⟨fun found => ?_, ?_⟩
  · by_contra nonempty
    exact foldedFrom?_ne_nil found (.inr nonempty) rfl
  · rintro rfl
    exact folded?_nil

private theorem unfolded_nil : Unfolded [] :=
  ⟨List.not_mem_nil, rfl, rfl, rfl⟩

section Split

variable {word run rest : List Char} (noGap : ∀ c ∈ word, isGap c = false)
  (gaps : ∀ c ∈ run, isGap c = true) (stop : ∀ c ∈ rest.head?, isGap c = false)
include noGap gaps stop

/-- A text is kept if the gap in it is, and what comes behind that. -/
private theorem folded?_eq_self_split :
    folded? (word ++ (run ++ rest)) = some (word ++ (run ++ rest)) ↔
      (Gap.endsLine run && opensDocument rest) = false ∧ (Gap.ofRun run).folded = run ∧
        folded? rest = some rest := by
  rw [folded?_word noGap, folded?_run gaps stop]
  cases (Gap.endsLine run && opensDocument rest) with
  | true => simp
  | false =>
    simp only [Bool.false_eq_true, if_false, true_and, Option.map_map, Option.map_eq_some_iff,
      Function.comp_apply, List.append_cancel_left_eq]
    constructor
    · rintro ⟨behind, read, same⟩
      -- Neither part gets longer, so each of them keeps its length.
      have gap := Gap.length_folded_ofRun run
      have shorter := length_foldedFrom? read
      have both := congrArg List.length same
      simp only [List.length_append, List.length_nil] at both shorter
      obtain ⟨front, back⟩ := List.append_inj same (by omega)
      exact ⟨front, back ▸ read⟩
    · rintro ⟨gap, read⟩
      exact ⟨rest, read, by rw [gap]⟩

private theorem unfolded_split :
    Unfolded (word ++ (run ++ rest)) ↔
      (Gap.endsLine run && opensDocument rest) = false ∧ (Gap.ofRun run).folded = run ∧
        Unfolded rest := by
  have noBreak : ∀ c ∈ word, isBareBreak c = false := fun c member =>
    isBareBreak_of_not_isGap (noGap c member)
  have noBlank : ∀ c ∈ word, (c == ' ') = false := fun c member =>
    (Bool.or_eq_false_iff.mp (noGap c member)).1
  -- No pair that is looked for reaches into a word, so each is found in the run or behind it.
  have before : holdsPair (· == ' ') isBareBreak (word ++ (run ++ rest)) =
      (holdsPair (· == ' ') isBareBreak run || holdsPair (· == ' ') isBareBreak rest) := by
    rw [holdsPair_word noBlank,
      holdsPair_append_stop run fun c member => isBareBreak_of_not_isGap (stop c member)]
  have behind : holdsPair isBareBreak (· == ' ') (word ++ (run ++ rest)) =
      (holdsPair isBareBreak (· == ' ') run || holdsPair isBareBreak (· == ' ') rest) := by
    rw [holdsPair_word noBreak,
      holdsPair_append_stop run fun c member => (Bool.or_eq_false_iff.mp (stop c member)).1]
  have marks := breaksBeforeMark_word noBreak (run ++ rest)
  rw [breaksBeforeMark_run gaps] at marks
  have noNext : '\x85' ∉ word := fun member => absurd (noGap _ member) (by decide)
  rw [unfolded_iff, unfolded_iff, before, behind, marks, Gap.folded_ofRun_eq_self_iff gaps]
  simp only [List.mem_append, noNext, false_or, not_or, Bool.or_eq_false_iff]
  tauto

end Split

/-- What a reader makes of a text is the text itself exactly if there is nothing to fold in it. -/
theorem folded?_eq_self_iff (text : List Char) : folded? text = some text ↔ Unfolded text := by
  -- Both sides ask the same of the first gap and leave a shorter text.
  obtain ⟨word, run, rest, split, noGap, gaps, stop, last⟩ := exists_word_run text
  rw [split, folded?_eq_self_split noGap gaps stop, unfolded_split noGap gaps stop]
  refine and_congr_right fun _ => and_congr_right fun _ => ?_
  by_cases ended : run = []
  · obtain rfl := last ended
    exact ⟨fun _ => unfolded_nil, fun _ => rfl⟩
  · have shorter : rest.length < text.length := by
      have positive := List.length_pos_iff.mpr ended
      simp only [split, List.length_append]
      omega
    exact folded?_eq_self_iff rest
termination_by text.length

end Blueprint.Yaml
