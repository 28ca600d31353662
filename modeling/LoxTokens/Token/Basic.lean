import LoxTokens.Binary64.Reading
import LoxTokens.Token.Kind
import LoxTokens.Span

/-!
# Tokens

A token is a kind together with the text it was read from, the value of a literal, and where it
stands. The line of a token is the line on which its text ends.
-/

namespace LoxTokens

/-- The value of a literal. -/
inductive Literal where
  /-- The text between the quotes of a string. -/
  | text (s : String)
  /-- The value of a number. -/
  | number (x : Binary64)
  deriving DecidableEq, Repr

/-- A classified piece of source text. -/
structure Token where
  /-- What the token is. -/
  kind : Kind
  /-- The text of the token. -/
  lexeme : String
  /-- The value of a literal. -/
  literal : Option Literal := none
  /-- The line on which the text ends. -/
  line : Nat
  /-- Where the text stands. -/
  span : Span := Span.dummy
  deriving DecidableEq, Repr

namespace Literal

/-- The value of a string literal. -/
def text? : Literal → Option String
  | .text s => some s
  | .number _ => none

/-- The value of a number literal. -/
def number? : Literal → Option Binary64
  | .text _ => none
  | .number x => some x

/-- The value of a token's text: strings lose their quotes, numbers are read. -/
def ofLexeme (kind : Kind) (text : List Char) : Option Literal :=
  match kind with
  | .string => some (.text (String.ofList text.tail.dropLast))
  | .number => some (.number (Binary64.ofNumeral text))
  | _ => none

/-- A word has no value of its own. -/
theorem ofLexeme_ofWord (word text : List Char) : ofLexeme (Kind.ofWord word) text = none := by
  unfold Kind.ofWord
  split <;> rfl

end Literal

namespace Token

/-- The token that ends a text. -/
def eof (line : Nat) (span : Span) : Token := { kind := .eof, lexeme := "", line, span }

/-- The token that ends a text at a place. -/
def endAt (place : Location) : Token := eof place.line (Span.between place place)

/-- The token of a text that starts at a place. -/
def startAt (place : Location) (kind : Kind) (text : List Char) : Token where
  kind := kind
  lexeme := String.ofList text
  literal := Literal.ofLexeme kind text
  line := (place.after text).line
  span := Span.between place (place.after text)

/-- The token ends a text. -/
def isEof (t : Token) : Bool := t.kind == .eof

end Token

end LoxTokens
