/-!
# Causes of failure

Why something outside the program could not be read or written.
-/

namespace LoxTokens

/-- Why something could not be read or written. -/
inductive Cause where
  /-- There is no such file. -/
  | notFound
  /-- A file stands where a directory is needed. -/
  | notDirectory
  /-- A directory stands where a file is needed. -/
  | isDirectory
  /-- It is not for everyone to open. -/
  | permissionDenied
  /-- Links lead to links for too long. -/
  | tooManyLinks
  /-- The name holds a NUL. -/
  | nulInName
  /-- The name is longer than names can be. -/
  | nameTooLong
  /-- The bytes are not UTF-8. -/
  | notUtf8
  /-- A device has no room left. -/
  | deviceFull
  /-- A sink has no room left. -/
  | sinkFull
  /-- Anything else, in the words of whoever noticed it. -/
  | other (text : String)
  deriving DecidableEq, Repr

namespace Cause

/-- What is said about a cause. -/
def text : Cause → String
  | notFound => "No such file or directory (os error 2)"
  | notDirectory => "Not a directory (os error 20)"
  | isDirectory => "Is a directory (os error 21)"
  | permissionDenied => "Permission denied (os error 13)"
  | tooManyLinks => "Too many levels of symbolic links (os error 40)"
  | nulInName => "file name contained an unexpected NUL byte"
  | nameTooLong => "File name too long (os error 36)"
  | notUtf8 => "stream did not contain valid UTF-8"
  | deviceFull => "No space left on device (os error 28)"
  | sinkFull => "sink full"
  | other text => text

end Cause

end LoxTokens
