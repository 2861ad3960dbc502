import Blueprint.Text.Quotation

/-!
# Escapes in double quotes

The escapes that JSON and the configuration language write inside double quotes: a backslash before
a quotation mark or backslash, a letter for the common controls, four digits for the other ones.
-/

namespace Blueprint.Text

/-- A character as it is written inside double quotes. -/
def escapeChar (c : Char) : List Char :=
  if c = '"' then ['\\', '"']
  else if c = '\\' then ['\\', '\\']
  else if c = '\n' then ['\\', 'n']
  else if c = '\r' then ['\\', 'r']
  else if c = '\t' then ['\\', 't']
  else if c = '\x08' then ['\\', 'b']
  else if c = '\x0c' then ['\\', 'f']
  else if c.toNat < 0x20 then
    ['\\', 'u', '0', '0', if c.toNat < 0x10 then '0' else '1', Nat.digitChar (c.toNat % 16)]
  else [c]

/-- A text as it is written inside double quotes. -/
def escape (text : List Char) : List Char :=
  text.flatMap escapeChar

end Blueprint.Text
