import LoxTokens.Cause
import LoxTokens.Text.Utf8

/-!
# Entries of a file system

What stands at a path: nothing, for some cause, a directory, something that cannot be opened or
read, for some cause, or a file with its bytes. What cannot be opened is there all the same.
-/

namespace LoxTokens

/-- What stands at a path. -/
inductive Entry where
  /-- Nothing can be reached there. -/
  | absent (cause : Cause)
  /-- A directory. -/
  | directory
  /-- Something that cannot be opened, or not be read to its end. -/
  | closed (cause : Cause)
  /-- A file. -/
  | file (bytes : List UInt8)
  deriving DecidableEq, Repr

namespace Entry

/-- Something stands there, whether it can be opened or not. -/
def isPresent : Entry → Bool
  | absent _ => false
  | _ => true

/-- The text of a file, which is UTF-8. -/
def contents : Entry → Except Cause (List Char)
  | absent cause => .error cause
  | directory => .error .isDirectory
  | closed cause => .error cause
  | file bytes =>
    match Utf8.decode? bytes with
    | some text => .ok text
    | none => .error .notUtf8

/-- A file that holds the bytes of a text has that text. -/
theorem contents_encode (text : List Char) : (file (Utf8.encode text)).contents = .ok text := by
  rw [contents, Utf8.decode?_encode]

/-- A text is read from a file that holds its bytes, and from nothing else. -/
theorem contents_eq_ok_iff {e : Entry} {text : List Char} :
    e.contents = .ok text ↔ e = .file (Utf8.encode text) := by
  constructor
  · intro h
    cases e with
    | absent | directory | closed => cases h
    | file bytes =>
      rw [contents] at h
      split at h
      · rename_i hdecode
        cases h
        rw [Utf8.decode?_eq_some_iff.1 hdecode]
      · cases h
  · rintro rfl
    exact contents_encode text

end Entry

end LoxTokens
