import LoxTokens.Diagnostic.Basic
import LoxTokens.Text.Quoted

/-!
# Lexical errors

Two things can go wrong in a text: a character starts no lexeme, or a string is never closed. The
second is placed at the end of the text, where the closing quote is missed, and remembers the
quote that opened the string.
-/

namespace LoxTokens

/-- What is wrong with a text. -/
inductive LexError where
  /-- A character starts no lexeme. -/
  | unexpectedCharacter (ch : Char) (span : Span)
  /-- A string is never closed. -/
  | unterminatedString (opened : Span) (span : Span)
  deriving DecidableEq, Repr

namespace LexError

/-- The place of an error. -/
def span : LexError → Span
  | unexpectedCharacter _ span => span
  | unterminatedString _ span => span

/-- The line of an error. -/
def line (e : LexError) : Nat := e.span.line

/-- The code of an error. -/
def code : LexError → Code
  | unexpectedCharacter .. => Code.unexpectedCharacter
  | unterminatedString .. => Code.unterminatedString

/-- What is said about an error. -/
def message : LexError → String
  | unexpectedCharacter .. => "Unexpected character."
  | unterminatedString .. => "Unterminated string."

/-- The diagnostic of an error. A stray character is shown; a string is traced to its quote. -/
def diagnostic (e : LexError) : Diagnostic :=
  let d := (Diagnostic.error e.message e.span).withCode e.code
  match e with
  | unexpectedCharacter ch _ => d.withNote ("found " ++ Text.quoted ch)
  | unterminatedString opened _ =>
    (d.withNote ("string opened at " ++ opened.text)).withHelp
      "add a closing `\"` to end the string"

/-- Every diagnostic of an error is one. -/
@[simp] theorem level_diagnostic (e : LexError) : e.diagnostic.level = .error := by
  cases e <;> rfl

/-- The report of an error names its line and says what is wrong. -/
theorem text_diagnostic (e : LexError) :
    e.diagnostic.text = "[line " ++ toString e.line ++ "] " ++ "Error" ++ ": " ++ e.message := by
  cases e <;> rfl

end LexError

end LoxTokens
