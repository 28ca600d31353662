/-!
# JSON strings

Only what JSON forbids between quotes is escaped: the quote, the backslash and the control
characters. Five of these have a short escape; the others are written by code point.
-/

namespace LoxTokens.Json

/-- What a character is written as. -/
def escaped (c : Char) : List Char :=
  if c = '"' then ['\\', '"']
  else if c = '\\' then ['\\', '\\']
  else if c = '\x08' then ['\\', 'b']
  else if c = '\x0c' then ['\\', 'f']
  else if c = '\n' then ['\\', 'n']
  else if c = '\r' then ['\\', 'r']
  else if c = '\t' then ['\\', 't']
  else if c.toNat < 0x20 then
    ['\\', 'u', '0', '0', Nat.digitChar (c.toNat / 16), Nat.digitChar (c.toNat % 16)]
  else [c]

/-- A text between quotes. -/
def quoted (s : String) : List Char := '"' :: s.toList.flatMap escaped ++ ['"']

/-- The parts in which a text between quotes is written. -/
def quotedParts (s : String) : List (List Char) := ['"'] :: s.toList.map escaped ++ [['"']]

theorem flatten_quotedParts (s : String) : (quotedParts s).flatten = quoted s := by
  simp [quotedParts, quoted, List.flatMap_def]

end LoxTokens.Json
