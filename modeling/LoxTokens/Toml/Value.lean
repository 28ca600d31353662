import LoxTokens.Binary64.Basic

/-!
# Values of a settings file

A value is a scalar, an array or a table. A table remembers how it came to be, because that decides
what may still be added to it.
-/

namespace LoxTokens.Toml

/-- How a table came to be. -/
inductive Origin where
  /-- It was written between braces, and nothing can be added to it. -/
  | inline
  /-- It has a header of its own. -/
  | header
  /-- A header of a table inside it was read before one of its own. -/
  | implied
  /-- It was named by a key with dots. -/
  | dotted
  deriving DecidableEq, Repr

/-- A value. -/
inductive Value where
  /-- A text. -/
  | string (s : String)
  /-- A whole number. -/
  | integer (n : Int)
  /-- A double precision number. -/
  | float (x : Binary64)
  /-- A truth value. -/
  | boolean (b : Bool)
  /-- A date, a time of day, or both, as written. -/
  | moment (text : String)
  /-- Values in order. -/
  | array (items : List Value)
  /-- Named values in the order of their names' first appearance. -/
  | table (origin : Origin) (entries : List (String × Value))
  /-- Tables that share a header, the latest first. -/
  | tables (elements : List (List (String × Value)))

/-- Named values. -/
abbrev Entries := List (String × Value)

namespace Value

/-- A value with nothing in it. -/
def isEmpty : Value → Bool
  | array items => items.isEmpty
  | table _ entries => entries.isEmpty
  | _ => false

end Value

end LoxTokens.Toml
