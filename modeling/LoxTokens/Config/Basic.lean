/-!
# Settings

How tokens are written, and how the prompt behaves.
-/

namespace LoxTokens

/-- How tokens are written. -/
inductive Format where
  /-- A plain list. -/
  | text
  /-- A JSON array. -/
  | json
  deriving DecidableEq, Repr

namespace Format

/-- The name of a format. -/
def name : Format → String
  | .text => "text"
  | .json => "json"

/-- The format with a name. -/
def ofName? (name : String) : Option Format := [text, json].find? (·.name == name)

end Format

/-- The settings of a run. -/
structure Config where
  /-- How tokens are written. -/
  format : Format := .text
  /-- The token that ends a text is written too. -/
  showEof : Bool := true
  /-- What the prompt shows before a line. -/
  prompt : String := "> "
  /-- The prompt remembers lines. -/
  history : Bool := true
  deriving DecidableEq, Repr

end LoxTokens
