import Blueprint.Text.Basic
import Mathlib.Data.List.DropRight

/-!
# Pieces and ends of texts

Texts that are split at a character, cut at their end or searched for a piece, in terms of the same
operations on lists.
-/

namespace Blueprint.Text

/-! ## Splitting and searching -/

theorem splitAtChar_eq_splitOn (separator : Char) (text : List Char) :
    splitAtChar separator text = text.splitOn separator := by
  induction text with
  | nil => rfl
  | cons c text ih =>
    rw [splitAtChar, ih, List.splitOn, List.splitOn, List.splitOnP_cons_eq_if_modifyHead]
    by_cases same : c = separator
    · simp [same]
    · cases pieces : text.splitOnP (· == separator) with
      | nil => exact absurd pieces (List.splitOnP_ne_nil _ _)
      | cons piece pieces => simp [same]

theorem splitAtChar_ne_nil (separator : Char) (text : List Char) :
    splitAtChar separator text ≠ [] := by
  rw [splitAtChar_eq_splitOn]
  exact List.splitOnP_ne_nil _ _

theorem splitAtChar_append (separator : Char) (before after : List Char) :
    splitAtChar separator (before ++ separator :: after) =
      splitAtChar separator before ++ splitAtChar separator after := by
  induction before with
  | nil => simp [splitAtChar]
  | cons c before ih =>
    simp only [List.cons_append, splitAtChar, ih]
    split
    · rfl
    · cases split : splitAtChar separator before with
      | nil => exact absurd split (splitAtChar_ne_nil separator before)
      | cons first others => rfl

theorem contains_iff {piece text : List Char} :
    contains piece text = true ↔ piece <:+: text := by
  induction text with
  | nil => simp [contains]
  | cons c rest ih =>
    rw [contains, Bool.or_eq_true, List.isPrefixOf_iff_prefix, ih, List.infix_cons_iff]

/-! ## Ends -/

private theorem dropEndWhile_eq_rdropWhile (drop : Char → Bool) (text : List Char) :
    dropEndWhile drop text = text.rdropWhile drop := by
  induction text with
  | nil => rfl
  | cons c text ih =>
    rw [dropEndWhile, ih, List.rdropWhile, List.rdropWhile, List.reverse_cons, List.dropWhile_append]
    cases kept : text.reverse.dropWhile drop with
    | nil => by_cases dropped : drop c = true <;> simp [dropped]
    | cons d others =>
      have nonempty : (d :: others).reverse ≠ [] := by simp
      split
      · next empty => exact absurd empty nonempty
      · simp

/-- The end that is dropped ends where a character is kept. -/
theorem dropEndWhile_append {drop : Char → Bool} {kept dropped : List Char}
    (stays : ∀ c, kept.getLast? = some c → drop c = false)
    (goes : ∀ c ∈ dropped, drop c = true) : dropEndWhile drop (kept ++ dropped) = kept := by
  have bare : kept.rdropWhile drop = kept := by
    rw [List.rdropWhile_eq_self_iff]
    intro nonempty
    simp [stays _ (List.getLast?_eq_some_getLast nonempty)]
  rw [dropEndWhile_eq_rdropWhile, List.rdropWhile, List.reverse_append,
    List.dropWhile_append_of_pos (by simpa using goes)]
  exact bare

/-- What is trimmed is so at both ends. -/
theorem trim_eq (text : List Char) :
    trim text = (text.dropWhile isBlank).rdropWhile isBlank :=
  dropEndWhile_eq_rdropWhile isBlank _

/-- A text does not end in a blank. -/
def NoBlankEnd (text : List Char) : Prop :=
  ∀ nonempty : text ≠ [], isBlank (text.getLast nonempty) = false

theorem noBlankEnd_trim (text : List Char) : NoBlankEnd (trim text) := by
  intro nonempty
  simp only [trim_eq] at nonempty ⊢
  simpa using List.rdropWhile_last_not _ _ nonempty

/-- The end of a text that does not end in a blank does not either. -/
theorem NoBlankEnd.suffix {text back : List Char} (ends : NoBlankEnd text) (suffix : back <:+ text) :
    NoBlankEnd back := by
  intro nonempty
  rw [suffix.getLast nonempty]
  exact ends _

/-- Where a text does not end in a blank, only those before it are trimmed. -/
theorem NoBlankEnd.trim_eq {text : List Char} (ends : NoBlankEnd text) :
    trim text = text.dropWhile isBlank := by
  rw [Text.trim_eq, List.rdropWhile_eq_self_iff]
  intro nonempty
  simpa using ends.suffix (List.dropWhile_suffix isBlank) nonempty

end Blueprint.Text
