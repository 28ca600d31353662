import LoxTokens.Text.Graphic
import LoxTokens.Text.Mark

/-!
# Quoted characters

A character is shown between single quotes so that it can be told from every other: what has no
visible form of its own is written as an escape with its code point in hexadecimal.
-/

namespace LoxTokens.Text

/-- A code point in hexadecimal between braces. -/
def codeEscape (c : Char) : String :=
  "\\u\x7b" ++ String.ofList (Nat.toDigits 16 c.toNat) ++ "\x7d"

/-- What stands between the quotes. -/
def escaped (c : Char) : String :=
  if c = '\x00' then "\\0"
  else if c = '\t' then "\\t"
  else if c = '\r' then "\\r"
  else if c = '\n' then "\\n"
  else if c = '\'' then "\\'"
  else if c = '\\' then "\\\\"
  else if isMark c || !isGraphic c then codeEscape c
  else String.singleton c

/-- A character between single quotes. -/
def quoted (c : Char) : String := "'" ++ escaped c ++ "'"

end LoxTokens.Text
