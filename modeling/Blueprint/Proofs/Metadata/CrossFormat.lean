import Blueprint.Proofs.Metadata.JsonRoundTrip
import Blueprint.Proofs.Metadata.Texts
import Blueprint.Proofs.Metadata.YamlRoundTrip
import Blueprint.Proofs.Yaml.JsonRefusal

/-!
# Documents read in the other format

The format of a text that is read may be another one than the format in which it was written. A
document in JSON is still found by a reader of YAML exactly if its texts are portable; if they are
not, nothing is found, or a document with the texts that they are folded to. A document in YAML is
nothing to a reader of JSON, whatever it says.
-/

namespace Blueprint

/-! ## JSON read as YAML -/

namespace Metadata

/-- The characters of a document in JSON. -/
def jsonText (document : Metadata) (spread : Bool) : List Char :=
  if spread then Json.pretty 0 document.toValue ++ ['\n'] else Json.compact document.toValue

private theorem render_json (document : Metadata) (spread : Bool) :
    document.render .json spread = String.ofList (document.jsonText spread) := by
  cases spread with
  | false => rfl
  | true =>
    have split : String.ofList (Json.pretty 0 document.toValue ++ ['\n']) =
        String.ofList (Json.pretty 0 document.toValue) ++ "\n" := String.ofList_append
    exact split.symm

/-- A document in JSON is a spelling of its value, with a line end behind it or without. -/
private theorem exists_spells_render_json {document : Metadata}
    (floatFree : document.toValue.FloatFree)
    (spread : Bool) : ∃ text after, document.render .json spread = String.ofList (text ++ after) ∧
      Json.Spells document.toValue text ∧ (after = [] ∨ after = ['\n']) := by
  rw [render_json]
  cases spread with
  | false =>
    exact ⟨_, [], congrArg String.ofList (List.append_nil _).symm, Json.spells_compact _ floatFree,
      .inl rfl⟩
  | true => exact ⟨_, ['\n'], rfl, Json.spells_pretty 0 _ floatFree, .inr rfl⟩

/-- The levels of roles are words, so they stay. -/
private theorem foldedText_levelName (level : RoleLevel) :
    Value.foldedText level.name = level.name := by
  have unfolded : Yaml.Unfolded level.name.toList := by
    cases level <;> decide
  exact (Value.unfolded_iff_foldedText.mp unfolded).2

/-- The value of a document with its texts folded. -/
private theorem toValue_foldedTexts {document : Metadata} (exact : document.Exact) :
    (document.mapTexts Value.foldedText).toValue = document.toValue.mapTexts Value.foldedText :=
  toValue_mapTexts Value.isEmpty_foldedText foldedText_levelName exact

/-- The tree that YAML finds, if any, is read as the document with its texts folded. -/
private theorem decode_foldedTexts {document : Metadata} (exact : document.Exact)
    (shallow : document.toValue.nesting ≤ Yaml.maxDepth) :
    decode Yaml.Bounded.accessors
        ⟨Yaml.Node.styled Yaml.quotedStyle (document.toValue.mapTexts Value.foldedText),
          Yaml.maxDepth⟩ =
      some (document.withoutNulls.mapTexts Value.foldedText) := by
  -- The tree is that of a document with other texts, which is as exact and as deep.
  rw [← toValue_foldedTexts exact, ← withoutNulls_mapTexts]
  apply decode_toValue (Yaml.Bounded.faithful_styled Yaml.keepsText_doubleQuoted) exact.mapTexts
  rwa [toValue_foldedTexts exact, Value.nesting_mapTexts]

/-- What YAML finds in a document in JSON, if anything, is the document with its texts folded. -/
private theorem read?_yaml_render_json_eq_some_iff {document other : Metadata}
    (exact : document.Exact)
    (shallow : document.toValue.nesting ≤ Yaml.maxDepth) (spread : Bool) :
    read? .yaml (document.render .json spread) = some other ↔
      document.toValue.Texts Value.AllowedText Value.AllowedText ∧
        document.toValue.Texts Value.NearKey Value.FoldableText ∧
        document.withoutNulls.mapTexts Value.foldedText = other := by
  obtain ⟨text, after, written, spelled, ends⟩ := exists_spells_render_json exact.floatFree spread
  have found := decode_foldedTexts exact shallow
  have tree (node : Yaml.Node) := @Yaml.read?_of_spells_iff _ text after node spelled ends
  rw [read?, written, Option.bind_eq_some_iff]
  constructor
  · rintro ⟨node, read, decoded⟩
    obtain ⟨allowed, readable, rfl⟩ := (tree node).mp read
    exact ⟨allowed, readable, Option.some.inj (found.symm.trans decoded)⟩
  · rintro ⟨allowed, readable, rfl⟩
    exact ⟨_, (tree _).mpr ⟨allowed, readable, rfl⟩, found⟩

/-- A document in JSON is read as YAML if its texts are portable. -/
theorem read?_yaml_render_json {document : Metadata} (exact : document.Exact)
    (portable : document.toValue.Portable) (shallow : document.toValue.nesting ≤ Yaml.maxDepth)
    (spread : Bool) :
    read? .yaml (document.render .json spread) = some document.withoutNulls := by
  obtain ⟨allowed, readable, same⟩ := Value.portable_iff.mp portable
  -- The same tree is decoded twice: as that of the document and as that of the folded one.
  have found := decode_toValue (Yaml.Bounded.faithful_styled Yaml.keepsText_doubleQuoted) exact shallow
  have folded := decode_foldedTexts exact shallow
  rw [same] at folded
  rw [read?_yaml_render_json_eq_some_iff exact shallow]
  exact ⟨allowed, readable, Option.some.inj (folded.symm.trans found)⟩

/-- A document in JSON that is found again by a reader of YAML has portable texts. -/
theorem portable_of_read?_yaml {document : Metadata} {spread : Bool} (exact : document.Exact)
    (noNull : document.withoutNulls = document)
    (shallow : document.toValue.nesting ≤ Yaml.maxDepth)
    (read : read? .yaml (document.render .json spread) = some document) :
    document.toValue.Portable := by
  obtain ⟨allowed, readable, same⟩ := (read?_yaml_render_json_eq_some_iff exact shallow spread).mp read
  rw [noNull] at same
  rw [Value.portable_iff, ← toValue_foldedTexts exact, same]
  exact ⟨allowed, readable, rfl⟩

/-- The characters of a document decide what YAML finds in its JSON. -/
theorem read?_yaml_jsonText (document : Metadata) (spread : Bool) :
    read? .yaml (document.render .json spread) =
      (if (document.jsonText spread).all Yaml.isAllowed then
        (Yaml.Reader.document (8 * (document.jsonText spread).length + 64)
          { position := { rest := document.jsonText spread } }).map (·.1)
      else none).bind fun node => decode Yaml.Bounded.accessors ⟨node, Yaml.maxDepth⟩ := by
  have noMark : (document.jsonText spread).head? ≠ some '\ufeff' := by
    cases spread <;> simp [jsonText, toValue, Json.pretty, Json.compact]
  rw [read?, render_json, Yaml.read?_of_noMark (by simpa using noMark), String.toList_ofList]

end Metadata

/-! ## YAML read as JSON -/

namespace Json

/-- No value starts with a letter that starts no word. -/
private theorem parse?_of_letter {text : List Char} :
    parse? (String.ofList ('a' :: text)) = none := by
  have noNumber : number? ('a' :: text) = none := rfl
  have start : skipBlanks ('a' :: text) = 'a' :: text := skipBlanks_token (by simp [IsBlank]) text
  have noValue (fuel : Nat) : value? (fuel + 1) ('a' :: text) = none := by
    simp [value?, noNumber]
  simp only [parse?, String.toList_ofList, start, noValue]

end Json

namespace Metadata

/-- A document in YAML starts with the name of its first field. -/
private theorem exists_render_yaml (document : Metadata) (spread : Bool) :
    ∃ rest, document.render .yaml spread = String.ofList ('a' :: rest) := by
  have simple : Yaml.Printer.isSimpleKey "apiVersion" = true := by decide
  have key : Yaml.Printer.scalarText 2 "apiVersion" = "apiVersion".toList := by decide
  have first := @Yaml.nextLine_fields 0 ⟨0, []⟩ "apiVersion" (.string document.apiVersion)
    [("kind", .string document.kind), ("metadata", document.resource.toValue),
      ("spec", document.spec.toValue)]
  have behind : Yaml.Printer.afterKey 0 (.string document.apiVersion) ≠ [] := List.cons_ne_nil _ _
  rw [Yaml.nextLine_entryText_simple simple behind, key] at first
  exact ⟨_, congrArg String.ofList first⟩

end Metadata

/-- No document in YAML is read as JSON. -/
theorem Metadata.read?_json_render_yaml (document : Metadata) (spread : Bool) :
    read? .json (document.render .yaml spread) = none := by
  obtain ⟨rest, written⟩ := document.exists_render_yaml spread
  rw [read?, written, Json.parse?_of_letter, Option.bind_none]

end Blueprint
