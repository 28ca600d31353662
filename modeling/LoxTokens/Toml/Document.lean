import LoxTokens.Toml.Moment
import LoxTokens.Toml.Number
import LoxTokens.Toml.Table

/-!
# Documents

A document is a sequence of lines: assignments, headers, comments and empty lines. Assignments
before the first header fill the document itself, the others the table of the header before them.
Arrays and tables between braces are nested fewer than eighty levels deep, and a key has fewer than
eighty parts.
-/

namespace LoxTokens.Toml

open Reader

/-- A bound on nesting, and on the parts of a key. -/
def limit : Nat := 80

/-- A key with its parts: the names of tables, and a last name. -/
structure Key where
  /-- The tables on the way. -/
  path : List String
  /-- The last name. -/
  name : String
  deriving DecidableEq, Repr

/-- A line that says something. -/
inductive Statement where
  /-- A key and its value. -/
  | assignment (key : Key) (value : Value)
  /-- The header of a table. -/
  | table (key : Key)
  /-- The header of one more of several tables. -/
  | element (key : Key)

/-- A character of a key without quotes. -/
def isBare (c : Char) : Bool := c.isAlphanum || c == '_' || c == '-'

/-- A part of a key. -/
def part : Reader String := do
  blanks
  let text ← basicString <|> literalString <|> do
    return (← one isBare) :: (← run isBare)
  blanks
  return String.ofList text

/-- A key. -/
def key : Reader Key := do
  let parts ← separated part (char '.')
  check (parts.length < limit)
  return ⟨parts.dropLast, parts.getLastD ""⟩

/-- A value without parts. -/
def scalar : Reader Value :=
  (return .string (String.ofList (← string))) <|> moment <|> number <|>
    (word "true" *> pure (.boolean true)) <|> (word "false" *> pure (.boolean false))

/-- A key, the sign behind it, and a value. -/
def assignment (value : Reader Value) : Reader (Key × Value) := do
  let key ← key
  discard (char '=')
  blanks
  let value ← value
  blanks
  return (key, value)

/-- Values between brackets. The last one may be followed by a comma. -/
def array (value : Reader Value) : Reader Value := do
  discard (char '[')
  let items ← maybe (separated (gap *> value <* gap) (char ','))
  if items.isSome then discard (maybe (char ','))
  gap
  discard (char ']')
  return .array (items.getD [])

/-- Assignments between braces. -/
def inlineTable (value : Reader Value) : Reader Value := do
  discard (char '\x7b')
  let items ← maybe (separated (assignment value) (char ','))
  blanks
  discard (char '\x7d')
  match (items.getD []).foldlM (fun es (k, v) => assign k.path k.name v es) [] with
  | some entries => return .table .inline entries
  | none => failure

/-- A value, with a number of levels below it. -/
def value : Nat → Reader Value
  | 0 => scalar
  | levels + 1 => scalar <|> array (value levels) <|> inlineTable (value levels)

/-- A line that says something. -/
def statement : Reader Statement :=
  (do
    word "[["
    let key ← key
    word "]]"
    return .element key) <|>
  (do
    word "["
    let key ← key
    word "]"
    return .table key) <|>
  (do
    let (key, value) ← assignment (value (limit - 1))
    return .assignment key value)

/-- A line without its end. -/
def line : Reader (Option Statement) := do
  blanks
  let statement ← maybe statement
  blanks
  discard (maybe comment)
  return statement

/-- What the lines of a text say. A mark of the byte order may stand before them. -/
def statements : Reader (List Statement) := do
  discard (maybe (char '\uFEFF'))
  let lines ← separated line newline
  atEnd
  return lines.reduceOption

/-- Fill a table with the assignments before the first header. -/
def fill : List Statement → Entries → Option Entries
  | .assignment key value :: rest, entries =>
    (assign key.path key.name value entries).bind (fill rest)
  | _, entries => some entries

/-- Carry out the headers among statements, each with the assignments behind it. -/
def carryOut : List Statement → Entries → Option Entries
  | [], entries => some entries
  | .assignment .. :: rest, entries => carryOut rest entries
  | .table key :: rest, entries =>
    (within key.path (openTable key.name (fill rest)) entries).bind (carryOut rest)
  | .element key :: rest, entries =>
    (within key.path (openElement key.name (fill rest)) entries).bind (carryOut rest)

/-- The named values of a text. -/
def document (text : List Char) : Option Entries := do
  let (statements, _) ← statements text
  let entries ← fill statements []
  carryOut statements entries

end LoxTokens.Toml
