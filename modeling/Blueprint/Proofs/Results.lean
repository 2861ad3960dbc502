import Mathlib.Data.List.Forall2

/-!
# Results of computations that may fail

When a sequence of steps succeeds, and what it gives then. Everything that is read from files is
computed in this form, and these lemmas take such a computation apart without opening it.
-/

namespace Blueprint

variable {ε α β : Type}

/-- Two steps succeed exactly when the first one does and the second one does on its result. -/
theorem bind_eq_ok_iff {first : Except ε α} {next : α → Except ε β} {result : β} :
    (first >>= next) = .ok result ↔ ∃ value, first = .ok value ∧ next value = .ok result := by
  cases first <;> simp [bind, Except.bind]

theorem ok_bind (value : α) (next : α → Except ε β) : (Except.ok value >>= next) = next value := rfl

theorem error_bind (error : ε) (next : α → Except ε β) :
    (Except.error error >>= next) = .error error := rfl

theorem throw_eq_error (error : ε) : (throw error : Except ε α) = .error error := rfl

/-- A mapped result comes from a result. -/
theorem map_eq_ok_iff {first : Except ε α} {f : α → β} {result : β} :
    first.map f = .ok result ↔ ∃ value, first = .ok value ∧ f value = result := by
  cases first <;> simp [Except.map]

/-- Two steps fail exactly when the first one does or the second one does on its result. -/
theorem bind_eq_error_iff {first : Except ε α} {next : α → Except ε β} {error : ε} :
    (first >>= next) = .error error ↔
      first = .error error ∨ ∃ value, first = .ok value ∧ next value = .error error := by
  cases first <;> simp [bind, Except.bind]

theorem map_eq_error_iff {first : Except ε α} {f : α → β} {error : ε} :
    first.map f = .error error ↔ first = .error error := by
  cases first <;> simp [Except.map]

theorem mapError_eq_ok_iff {ε' : Type} {first : Except ε α} {f : ε → ε'} {result : α} :
    first.mapError f = .ok result ↔ first = .ok result := by
  cases first with
  | error error => exact ⟨nofun, nofun⟩
  | ok value =>
    have same : (Except.ok value).mapError f = .ok value := rfl
    rw [same, Except.ok.injEq, Except.ok.injEq]

theorem mapError_eq_error_iff {ε' : Type} {first : Except ε α} {f : ε → ε'} {error : ε'} :
    first.mapError f = .error error ↔ ∃ cause, first = .error cause ∧ f cause = error := by
  cases first with
  | error cause =>
    have same : (Except.error cause : Except ε α).mapError f = .error (f cause) := rfl
    simp [same]
  | ok value => exact ⟨nofun, nofun⟩

/-- A computation fails exactly when it gives no result. -/
theorem exists_error_iff {result : Except ε α} :
    (∃ error, result = .error error) ↔ ¬ ∃ value, result = .ok value := by
  cases result <;> simp

@[simp] theorem pure_eq_ok_iff {value result : α} :
    (pure value : Except ε α) = .ok result ↔ value = result := by
  simp [pure, Except.pure]

@[simp] theorem pure_ne_error {value : α} {error : ε} :
    (pure value : Except ε α) ≠ .error error := by
  simp [pure, Except.pure]

theorem eq_ok_of_toOption {result : Except ε α} {value : α}
    (kept : result.toOption = some value) : result = .ok value := by
  cases result with
  | error error => cases kept
  | ok found =>
    cases kept
    rfl

/-- The bytes of a text are read as that text. -/
theorem fromUTF8?_toUTF8 (text : String) : String.fromUTF8? text.toUTF8 = some text :=
  dif_pos text.isValidUTF8

/-- A traversal gives what its step gives for each item, if it gives something for all of them. -/
theorem mapM_eq_some_map {f : α → Option β} {g : α → β} {items : List α}
    (each : ∀ item ∈ items, f item = some (g item)) : items.mapM f = some (items.map g) := by
  induction items with
  | nil => rfl
  | cons item rest ih =>
    have tail := ih fun other member => each other (List.mem_cons_of_mem item member)
    simp [each item List.mem_cons_self, tail]

/-- A traversal undoes a function on every item of a list if its step does. -/
theorem mapM_map_eq_some {f : β → Option α} {g : α → β} {items : List α}
    (each : ∀ item ∈ items, f (g item) = some item) : (items.map g).mapM f = some items := by
  have traversed := @mapM_eq_some_map _ _ (f ∘ g) id items each
  rwa [List.map_id, ← List.mapM_map] at traversed

/-- What a traversal gives is given by its step for an item. -/
theorem exists_of_mem_mapM {f : α → Option β} {items : List α} {results : List β}
    (traversed : items.mapM f = some results) {result : β} (member : result ∈ results) :
    ∃ item ∈ items, f item = some result := by
  induction items generalizing results with
  | nil =>
    cases traversed
    cases member
  | cons item rest ih =>
    simp only [List.mapM_cons, Option.bind_eq_bind, Option.bind_eq_some_iff] at traversed
    obtain ⟨first, given, others, traversed, same⟩ := traversed
    cases same
    rcases List.mem_cons.mp member with rfl | behind
    · exact ⟨item, List.mem_cons_self, given⟩
    · obtain ⟨other, among, given⟩ := ih traversed behind
      exact ⟨other, List.mem_cons_of_mem item among, given⟩

section

variable {f : α → Except ε β} {items : List α}

/-- A traversal succeeds exactly when each of its steps does, and gives their results in order. -/
theorem mapM_eq_ok_iff {results : List β} :
    items.mapM f = .ok results ↔
      List.Forall₂ (fun item result => f item = .ok result) items results := by
  induction items generalizing results with
  | nil => simp [@eq_comm _ _ results]
  | cons item rest ih =>
    simp only [List.mapM_cons, bind_eq_ok_iff, pure_eq_ok_iff, ih]
    constructor
    · rintro ⟨first, given, others, traversed, rfl⟩
      exact .cons given traversed
    · intro traversed
      cases traversed with
      | cons given traversed => exact ⟨_, given, _, traversed, rfl⟩

/-- A traversal gives something if each of its steps does. -/
theorem exists_mapM_eq_ok_iff :
    (∃ results, items.mapM f = .ok results) ↔ ∀ item ∈ items, ∃ result, f item = .ok result := by
  induction items with
  | nil => simp
  | cons item rest ih =>
    rw [List.forall_mem_cons, ← ih]
    simp only [List.mapM_cons, bind_eq_ok_iff, pure_eq_ok_iff]
    constructor
    · rintro ⟨_, first, given, others, traversed, -⟩
      exact ⟨⟨first, given⟩, others, traversed⟩
    · rintro ⟨⟨first, given⟩, others, traversed⟩
      exact ⟨_, first, given, others, traversed, rfl⟩

/-- A traversal fails at the first of its steps that does. -/
theorem mapM_eq_error_iff {error : ε} :
    items.mapM f = .error error ↔
      ∃ front item back, items = front ++ item :: back ∧
        (∀ before ∈ front, ∃ result, f before = .ok result) ∧ f item = .error error := by
  induction items with
  | nil => simp
  | cons first rest ih =>
    simp only [List.mapM_cons, bind_eq_error_iff, pure_ne_error, and_false, exists_false, or_false,
      ih]
    constructor
    · rintro (fails | ⟨value, given, front, item, back, rfl, given', fails⟩)
      · exact ⟨[], first, rest, rfl, nofun, fails⟩
      · exact ⟨first :: front, item, back, rfl,
          List.forall_mem_cons.mpr ⟨⟨value, given⟩, given'⟩, fails⟩
    · rintro ⟨front, item, back, same, given, fails⟩
      cases front with
      | nil =>
        cases same
        exact .inl fails
      | cons before front =>
        cases same
        obtain ⟨⟨value, given⟩, others⟩ := List.forall_mem_cons.mp given
        exact .inr ⟨value, given, front, item, back, rfl, others, fails⟩

end

end Blueprint
