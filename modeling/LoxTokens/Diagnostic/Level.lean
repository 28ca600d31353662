/-!
# Severity levels

Four levels, the most severe first. Only errors keep a text from being used.
-/

namespace LoxTokens

/-- The severity of a message. -/
inductive Level where
  /-- The text cannot be used. -/
  | error
  /-- The text can be used. -/
  | warning
  /-- Something to know about another message. -/
  | note
  /-- A way to mend the text. -/
  | help
  deriving DecidableEq, Repr

namespace Level

/-- The place of a level in the order of severity. -/
def rank : Level → Nat
  | .error => 0
  | .warning => 1
  | .note => 2
  | .help => 3

instance : Ord Level := ⟨fun a b => compare a.rank b.rank⟩

/-- The name of a level. -/
def name : Level → String
  | .error => "error"
  | .warning => "warning"
  | .note => "note"
  | .help => "help"

/-- The name of a level at the head of a report. -/
def title : Level → String
  | .error => "Error"
  | .warning => "Warning"
  | .note => "Note"
  | .help => "Help"

/-- The level is that of errors. -/
def isError (l : Level) : Bool := l == .error

end Level

end LoxTokens
