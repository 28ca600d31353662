import LoxTokens.Toml.Blank

/-!
# Strings

A string stands between double quotes, where a backslash starts an escape, or between single
quotes, where every character is itself. Between three quotes of either kind a string may span
lines: a newline right behind the opening quotes does not count, up to two quotes in a row are
characters, and behind double quotes a backslash at the end of a line swallows the line end and all
blanks and line ends after it.
-/

namespace LoxTokens.Toml

open Reader

/-- A digit of a code point. -/
def isHexDigit (c : Char) : Bool :=
  c.isDigit || 'a' ≤ c && c ≤ 'f' || 'A' ≤ c && c ≤ 'F'

/-- The value of a digit in any base up to sixteen. -/
def digitValue (c : Char) : Nat :=
  if c.isDigit then c.toNat - '0'.toNat
  else if c.isLower then c.toNat - 'a'.toNat + 10
  else c.toNat - 'A'.toNat + 10

/-- The number that digits denote in a base. -/
def numeralValue (base : Nat) (digits : List Char) : Nat :=
  digits.foldl (fun n c => base * n + digitValue c) 0

/-- The character with a code point of a fixed number of digits. -/
def codePoint (size : Nat) : Reader Char := do
  let digits ← upTo (one isHexDigit) size
  check (digits.length == size)
  let n := numeralValue 16 digits
  check (Nat.isValidChar n)
  return Char.ofNat n

/-- The character behind a backslash. -/
def escape : Reader Char := do
  match ← one fun _ => true with
  | 'b' => return '\x08'
  | 't' => return '\t'
  | 'n' => return '\n'
  | 'f' => return '\x0c'
  | 'r' => return '\r'
  | '"' => return '"'
  | '\\' => return '\\'
  | 'u' => codePoint 4
  | 'U' => codePoint 8
  | _ => failure

/-- A character between double quotes. -/
def basicChar : Reader Char :=
  one (fun c => isPlain c && c != '"' && c != '\\') <|> (char '\\' *> escape)

/-- A string between double quotes. -/
def basicString : Reader (List Char) := char '"' *> many basicChar <* char '"'

/-- A string between single quotes. -/
def literalString : Reader (List Char) :=
  char '\'' *> run (fun c => isPlain c && c != '\'') <* char '\''

/-- A backslash that swallows a line end. -/
def continuation : Reader (List Char) := do
  discard (char '\\')
  blanks
  discard newline
  discard (many (discard (one isBlank) <|> discard newline))
  return []

/-- One or two quotes that do not close a string. -/
def quotes (q : Char) : Reader (List Char) := do
  let row ← run (· == q)
  check (row.length == 1 || row.length == 2)
  return row

/-- Three quotes, behind up to two more that still belong to the string. -/
def closing (q : Char) : Reader (List Char) := do
  let row ← run (· == q)
  check (3 ≤ row.length && row.length ≤ 5)
  return row.drop 3

/-- A string between three quotes, given its parts other than quotes. -/
def spanning (q : Char) (part : Reader (List Char)) : Reader (List Char) := do
  word (String.ofList [q, q, q])
  discard (maybe newline)
  let parts ← many (part <|> quotes q)
  return parts.flatten ++ (← closing q)

/-- A string between three double quotes. -/
def spanningBasic : Reader (List Char) :=
  spanning '"' (continuation <|> List.singleton <$> basicChar <|> List.singleton <$> newline)

/-- A string between three single quotes. -/
def spanningLiteral : Reader (List Char) :=
  spanning '\'' (List.singleton <$> one (fun c => isPlain c && c != '\'') <|>
    List.singleton <$> newline)

/-- A string of any form. -/
def string : Reader (List Char) :=
  spanningBasic <|> basicString <|> spanningLiteral <|> literalString

end LoxTokens.Toml
