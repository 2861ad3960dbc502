import Blueprint.Proofs.Value.Texts
import Blueprint.Proofs.Yaml.Unfolded

/-!
# Portable values

What a text and a key must be like for a YAML reader to find them in JSON (`Value.Portable`). Three
things can go wrong: a character is not allowed in YAML, what is read of a text is refused or
another text, and a key is not on one line with its colon near by. `Value.portable_iff` keeps them
apart, since they come to light at different times.
-/

namespace Blueprint

namespace Value

/-- A text whose characters are escaped in JSON or allowed in YAML. -/
def AllowedText (s : String) : Prop :=
  ∀ c ∈ s.toList, c.toNat < 0x20 ∨ Yaml.isAllowed c = true

/-- A key whose JSON string is on one line of YAML, with the colon behind it within reach. -/
structure NearKey (key : String) : Prop where
  oneLine : ∀ c ∈ key.toList, Yaml.isBareBreak c = false
  short : (Json.quote key.toList).length ≤ Yaml.Reader.keyLimit

/-- A key whose JSON string YAML takes for that key. -/
structure PortableKey (key : String) : Prop where
  allowed : AllowedText key
  near : NearKey key

/-- A text that YAML reads from its JSON string as it is. -/
structure PortableText (s : String) : Prop where
  allowed : AllowedText s
  unfolded : Yaml.Unfolded s.toList

/-- YAML reads the value from its JSON: so it does with every key and text inside. -/
def Portable (value : Value) : Prop :=
  value.Texts PortableKey PortableText

section Decidable

instance (s : String) : Decidable (AllowedText s) :=
  List.decidableBAll (fun c : Char => c.toNat < 0x20 ∨ Yaml.isAllowed c = true) s.toList

instance (key : String) : Decidable (NearKey key) :=
  have := List.decidableBAll (fun c => Yaml.isBareBreak c = false) key.toList
  decidable_of_iff
    ((∀ c ∈ key.toList, Yaml.isBareBreak c = false) ∧
      (Json.quote key.toList).length ≤ Yaml.Reader.keyLimit)
    ⟨fun holds => ⟨holds.1, holds.2⟩, fun near => ⟨near.oneLine, near.short⟩⟩

instance (key : String) : Decidable (PortableKey key) :=
  decidable_of_iff (AllowedText key ∧ NearKey key)
    ⟨fun holds => ⟨holds.1, holds.2⟩, fun portable => ⟨portable.allowed, portable.near⟩⟩

instance (text : List Char) : Decidable (Yaml.Unfolded text) :=
  decidable_of_iff _ (Yaml.unfolded_iff text).symm

instance (s : String) : Decidable (PortableText s) :=
  decidable_of_iff (AllowedText s ∧ Yaml.Unfolded s.toList)
    ⟨fun holds => ⟨holds.1, holds.2⟩, fun portable => ⟨portable.allowed, portable.unfolded⟩⟩

instance (value : Value) : Decidable value.Portable :=
  inferInstanceAs (Decidable (value.Texts PortableKey PortableText))

end Decidable

/-- A text of which YAML reads something from its JSON string. -/
def FoldableText (s : String) : Prop :=
  (Yaml.folded? s.toList).isSome = true

/-- The text that YAML reads from the JSON string of another one. -/
def foldedText (s : String) : String :=
  String.ofList ((Yaml.folded? s.toList).getD s.toList)

theorem FoldableText.folded? {s : String} (foldable : FoldableText s) :
    Yaml.folded? s.toList = some (foldedText s).toList := by
  obtain ⟨folded, read⟩ := Option.isSome_iff_exists.mp foldable
  rw [foldedText, read, Option.getD_some, String.toList_ofList]

/-- A text is read as itself exactly if there is nothing to fold in it. -/
theorem unfolded_iff_foldedText {s : String} :
    Yaml.Unfolded s.toList ↔ FoldableText s ∧ foldedText s = s := by
  rw [← Yaml.folded?_eq_self_iff]
  constructor
  · intro same
    exact ⟨Option.isSome_iff_exists.mpr ⟨_, same⟩, by
      rw [foldedText, same, Option.getD_some, String.ofList_toList]⟩
  · rintro ⟨foldable, same⟩
    rw [foldable.folded?, same]

/-- No text is folded away. -/
theorem isEmpty_foldedText (s : String) : (foldedText s).isEmpty = s.isEmpty := by
  rw [Bool.eq_iff_iff, String.isEmpty_iff, String.isEmpty_iff, foldedText, String.ofList_eq_empty_iff,
    ← String.toList_eq_nil_iff]
  cases read : Yaml.folded? s.toList with
  | none => rfl
  | some folded =>
    rw [Option.getD_some, ← @Yaml.folded?_eq_some_nil_iff s.toList, read, Option.some_inj]

/-- A value is portable if its characters are allowed, its keys are near and its texts foldable, and
no text is read as another one. -/
theorem portable_iff {value : Value} :
    value.Portable ↔ value.Texts AllowedText AllowedText ∧ value.Texts NearKey FoldableText ∧
      value.mapTexts foldedText = value := by
  rw [mapTexts_eq_self_iff, ← texts_and_iff, ← texts_and_iff, Portable]
  have keys : PortableKey = fun s => AllowedText s ∧ NearKey s ∧ True := funext fun s => propext
    ⟨fun portable => ⟨portable.allowed, portable.near, trivial⟩, fun holds => ⟨holds.1, holds.2.1⟩⟩
  have texts : PortableText = fun s => AllowedText s ∧ FoldableText s ∧ foldedText s = s :=
    funext fun s => propext
      ⟨fun portable => ⟨portable.allowed, unfolded_iff_foldedText.mp portable.unfolded⟩,
        fun holds => ⟨holds.1, unfolded_iff_foldedText.mpr holds.2⟩⟩
  rw [keys, texts]

end Value
end Blueprint
