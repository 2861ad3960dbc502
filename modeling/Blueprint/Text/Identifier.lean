import Blueprint.Text.Basic
import Blueprint.Text.IdentifierTable

/-!
# Identifiers

Which characters may start and continue a name: the letters of all scripts, the digits and marks
after the first place, and the underscore.
-/

namespace Blueprint.Text

/-- May start an identifier of the Unicode standard. -/
def isIdentifierStart (c : Char) : Bool :=
  if c.toNat < 0x80 then c.isAlpha else inRanges identifierStartRanges c.toNat

/-- May stand after the first character of an identifier of the Unicode standard. -/
def isIdentifierRest (c : Char) : Bool :=
  if c.toNat < 0x80 then c.isAlphanum || c == '_'
  else inRanges identifierStartRanges c.toNat || inRanges identifierExtendRanges c.toNat

end Blueprint.Text
