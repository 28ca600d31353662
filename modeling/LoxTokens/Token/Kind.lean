import LoxTokens.Token.Symbol
import LoxTokens.Token.Keyword

/-!
# Kinds of tokens

A token is a symbol, a keyword, an identifier, a literal, or the end of the text. The tag of a kind
is its name in every output.
-/

namespace LoxTokens

/-- What a token is. -/
inductive Kind where
  /-- An operator or a punctuation mark. -/
  | symbol (s : Symbol)
  /-- A word that is not reserved. -/
  | identifier
  /-- A string literal. -/
  | string
  /-- A number literal. -/
  | number
  /-- A reserved word. -/
  | keyword (k : Keyword)
  /-- The end of the text. -/
  | eof
  deriving DecidableEq, Repr

namespace Kind

/-- Every kind. -/
def all : List Kind :=
  Symbol.all.map .symbol ++ [.identifier, .string, .number] ++ Keyword.all.map .keyword ++ [.eof]

/-- The tag of a kind. -/
def name : Kind → String
  | .symbol s => s.name
  | .identifier => "IDENTIFIER"
  | .string => "STRING"
  | .number => "NUMBER"
  | .keyword k => k.name
  | .eof => "EOF"

/-- The kind with a tag. -/
def ofName? (name : String) : Option Kind := all.find? (·.name == name)

/-- Reserved words are keywords. -/
def isKeyword : Kind → Bool
  | .keyword _ => true
  | _ => false

/-- The kind of a word: a keyword if it is spelled like one. -/
def ofWord (text : List Char) : Kind :=
  match Keyword.ofSpelling? text with
  | some k => .keyword k
  | none => .identifier

/-- No word ends a text. -/
theorem ofWord_ne_eof (text : List Char) : ofWord text ≠ .eof := by
  unfold ofWord
  split <;> simp

theorem ofName?_name (k : Kind) : ofName? k.name = some k := by
  cases k with
  | symbol s => cases s <;> decide +kernel
  | keyword w => cases w <;> decide +kernel
  | identifier | string | number | eof => decide +kernel

end Kind

end LoxTokens
