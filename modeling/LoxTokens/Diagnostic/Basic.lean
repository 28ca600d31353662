import LoxTokens.Diagnostic.Code
import LoxTokens.Diagnostic.Level
import LoxTokens.Span

/-!
# Diagnostics

A diagnostic is a message about a place in a text. Notes and helps keep the order in which they
were added; a code or a place given later replaces the earlier one.
-/

namespace LoxTokens

/-- A message about a place in a text. -/
structure Diagnostic where
  /-- How severe the message is. -/
  level : Level
  /-- What it says. -/
  message : String
  /-- The place it is about. -/
  span : Span := Span.dummy
  /-- The kind of message. -/
  code : Option Code := none
  /-- What else there is to know. -/
  notes : List String := []
  /-- Ways to mend the text. -/
  helps : List String := []
  deriving DecidableEq, Repr

namespace Diagnostic

/-- An error at a place. -/
def error (message : String) (span : Span) : Diagnostic := { level := .error, message, span }

/-- A warning at a place. -/
def warning (message : String) (span : Span) : Diagnostic := { level := .warning, message, span }

/-- Name the kind of message. -/
def withCode (d : Diagnostic) (code : Code) : Diagnostic := { d with code := some code }

/-- Add a note behind the others. -/
def withNote (d : Diagnostic) (note : String) : Diagnostic := { d with notes := d.notes ++ [note] }

/-- Add a help behind the others. -/
def withHelp (d : Diagnostic) (help : String) : Diagnostic := { d with helps := d.helps ++ [help] }

/-- Move the message to another place. -/
def withSpan (d : Diagnostic) (span : Span) : Diagnostic := { d with span }

/-- Move the message to a line as a whole. -/
def onLine (d : Diagnostic) (line : Nat) : Diagnostic := d.withSpan (Span.point line 0)

/-- The line the message is about. -/
def line (d : Diagnostic) : Nat := d.span.line

/-- The report of a message. -/
def text (d : Diagnostic) : String :=
  "[line " ++ toString d.line ++ "] " ++ d.level.title ++ ": " ++ d.message

/-- The parts in which a report and the newline behind it are written. -/
def parts (d : Diagnostic) : List (List Char) :=
  ["[line ".toList, (toString d.line).toList, "] ".toList, d.level.title.toList, ": ".toList,
    d.message.toList, ['\n']]

/-- The parts of a report are all of it in order. -/
theorem flatten_parts (d : Diagnostic) : d.parts.flatten = d.text.toList ++ ['\n'] := by
  simp [parts, text]

end Diagnostic

end LoxTokens
