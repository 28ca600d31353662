import LoxTokens.Toml.Reader

/-!
# Blanks, comments and line ends

Blanks are spaces and tabs. A line ends with a newline, which a carriage return may precede; alone
a carriage return stands nowhere. A comment goes up to the end of its line.
-/

namespace LoxTokens.Toml

open Reader

/-- A character that may stand as itself in a comment or between quotes: no control character but
the tab. -/
def isPlain (c : Char) : Bool := c == '\t' || 0x20 ≤ c.toNat && c.toNat != 0x7F

/-- A space or a tab. -/
def isBlank (c : Char) : Bool := c == ' ' || c == '\t'

/-- Blanks, if there are any. -/
def blanks : Reader Unit := do discard (run isBlank)

/-- The end of a line. -/
def newline : Reader Char := do
  discard (maybe (char '\r'))
  char '\n'

/-- A comment, without the end of its line. -/
def comment : Reader Unit := do
  discard (char '#')
  discard (run isPlain)

/-- Blanks, line ends and comments, if there are any. -/
def gap : Reader Unit := do
  discard (many (discard (one isBlank) <|> discard newline <|> comment))

end LoxTokens.Toml
