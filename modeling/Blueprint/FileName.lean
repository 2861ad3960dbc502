/-!
# Names of files

A name in a directory is a string of bytes, and names are compared byte by byte. Most names write a
text, but none has to. A name that writes none is shown with a replacement character for each run of
bytes that breaks off.
-/

namespace Blueprint

/-- A name in a directory. -/
structure FileName where
  bytes : List UInt8
deriving DecidableEq, Repr, Inhabited

namespace FileName

/-- The name that writes a text. -/
def ofText (text : String) : FileName :=
  ⟨text.toUTF8.data.toList⟩

instance : Coe String FileName := ⟨ofText⟩

instance : Coe (List String) (List FileName) := ⟨List.map ofText⟩

/-- The text that a name writes, if it is one. -/
def text? (name : FileName) : Option String :=
  String.fromUTF8? ⟨⟨name.bytes⟩⟩

/-! ## Order -/

instance : LT FileName := ⟨fun x y => x.bytes < y.bytes⟩
instance : LE FileName := ⟨fun x y => x.bytes ≤ y.bytes⟩

instance (x y : FileName) : Decidable (x < y) :=
  inferInstanceAs (Decidable (x.bytes < y.bytes))

instance : Std.IsLinearOrder FileName where
  le_refl x := List.le_refl x.bytes
  le_trans _ _ _ below above := List.le_trans below above
  le_antisymm _ _ below above := congrArg mk (List.le_antisymm below above)
  le_total x y := List.le_total x.bytes y.bytes

instance : Std.LawfulOrderLT FileName where
  lt_iff x y := Std.LawfulOrderLT.lt_iff x.bytes y.bytes

/-! ## Names that are shown -/

/-- Whether a byte goes on with a character that was begun before. -/
def isContinuation (byte : UInt8) : Bool :=
  0x80 ≤ byte && byte ≤ 0xBF

/-- Whether a byte can follow the first byte of a character of three or four bytes. -/
def mayFollow (first second : UInt8) : Bool :=
  if first = 0xE0 then 0xA0 ≤ second && second ≤ 0xBF
  else if first = 0xED then 0x80 ≤ second && second ≤ 0x9F
  else if first = 0xF0 then 0x90 ≤ second && second ≤ 0xBF
  else if first = 0xF4 then 0x80 ≤ second && second ≤ 0x8F
  else 0xE1 ≤ first && first ≤ 0xF3 && isContinuation second

/-- How many bytes behind a first byte belong to a character that breaks off. -/
def brokenLength (first : UInt8) : List UInt8 → Nat
  | [] => 0
  | second :: rest =>
    if mayFollow first second then 1 + (rest.takeWhile isContinuation).length else 0

/-- The characters that bytes write, with a replacement character for what writes none. The first
`skip` bytes are passed over. -/
def decode (skip : Nat) : List UInt8 → List Char
  | [] => []
  | first :: rest =>
    match skip with
    | skip + 1 => decode skip rest
    | 0 =>
      match ByteArray.utf8DecodeChar? ⟨⟨first :: rest⟩⟩ 0 with
      | some c => c :: decode (c.utf8Size - 1) rest
      | none => '\uFFFD' :: decode (brokenLength first rest) rest

/-- The text that a name is shown as. -/
def shown (name : FileName) : String :=
  name.text?.getD (String.ofList (decode 0 name.bytes))

@[simp] theorem text?_ofText (text : String) : (ofText text).text? = some text :=
  dif_pos text.isValidUTF8

@[simp] theorem shown_ofText (text : String) : (ofText text).shown = text := by
  rw [shown, text?_ofText, Option.getD_some]

theorem ofText_injective {x y : String} (same : ofText x = ofText y) : x = y := by
  have texts := congrArg text? same
  rw [text?_ofText, text?_ofText] at texts
  exact Option.some.inj texts

@[simp] theorem ofText_inj {x y : String} : ofText x = ofText y ↔ x = y :=
  ⟨ofText_injective, congrArg ofText⟩

/-- A name is the one that writes its text. -/
theorem text?_eq_some_iff {name : FileName} {text : String} :
    name.text? = some text ↔ name = ofText text := by
  constructor
  · intro found
    simp only [text?, String.fromUTF8?] at found
    split at found
    · cases found
      rfl
    · cases found
  · rintro rfl
    exact text?_ofText text

end FileName
end Blueprint
