import Blueprint.Text.Basic
import Blueprint.Text.HiddenTable

/-!
# Characters in quotation marks

How a message shows a single character: as itself when it has a visible shape, with a backslash
when it is a control with a name of its own, and by its number otherwise.
-/

namespace Blueprint.Text

/-- The lower case digits of a number in base sixteen, without leading zeros. -/
def lowerHex (n : Nat) : List Char :=
  Nat.toDigits 16 n

/-- Whether a character is shown by its number. -/
def isHidden (c : Char) : Bool :=
  let n := c.toNat
  n < 0x20 || n == 0x7F || (0x80 ≤ n && inRanges hiddenRanges n)

/-- A character between single quotation marks. -/
def quotedChar (c : Char) : List Char :=
  let shown :=
    if c = '\x00' then ['\\', '0']
    else if c = '\t' then ['\\', 't']
    else if c = '\r' then ['\\', 'r']
    else if c = '\n' then ['\\', 'n']
    else if c = '\'' then ['\\', '\'']
    else if c = '\\' then ['\\', '\\']
    else if isHidden c then ['\\', 'u', '\x7b'] ++ lowerHex c.toNat ++ ['\x7d']
    else [c]
  '\'' :: shown ++ ['\'']

end Blueprint.Text
