import LoxTokens.Cause
import LoxTokens.Json.Complaint

/-!
# Failures

A failure ends the work, unlike an error in a text, which is only reported. Each failure has an
exit code. A report names the failure and then its causes, from the nearest to the first.
-/

namespace LoxTokens

/-- Why the work ended. -/
inductive Failure where
  /-- The settings cannot be had. -/
  | settings (problem : String)
  /-- The source text cannot be read. -/
  | source (path : String) (cause : Cause)
  /-- Events cannot be logged. -/
  | logging (problem : String)
  /-- Nothing more can be read or written. -/
  | transfer (cause : Cause)
  /-- The tokens cannot be encoded. -/
  | encoding (cause : Cause)
  /-- The prompt cannot go on. -/
  | prompt (cause : Cause)
  deriving DecidableEq, Repr

namespace Failure

/-- The failure that an encoder complains about. -/
def ofComplaint (c : Json.Complaint) : Failure := encoding (.other (String.ofList c.text))

/-- What is said about a failure. -/
def message : Failure → String
  | settings problem => "Configuration error: " ++ problem
  | source path cause => "Could not read " ++ path ++ ": " ++ cause.text
  | logging problem => "Failed to initialize logging: " ++ problem
  | transfer cause => "IO error: " ++ cause.text
  | encoding cause => "JSON error: " ++ cause.text
  | prompt cause => "Prompt error: " ++ cause.text

/-- The causes behind a failure. The prompt names its cause and the cause of that, which is the same
one. -/
def causes : Failure → List Cause
  | settings _ | logging _ => []
  | source _ cause | transfer cause | encoding cause => [cause]
  | prompt cause => [cause, cause]

/-- The message followed by the causes. -/
def report (f : Failure) : String :=
  String.intercalate ": " (f.message :: f.causes.map Cause.text)

/-- The code with which the program ends. -/
def exitCode : Failure → Nat
  | settings _ => 64
  | source .. => 66
  | logging _ | encoding _ | prompt _ => 70
  | transfer _ => 74

end Failure

end LoxTokens
