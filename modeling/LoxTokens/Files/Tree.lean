import LoxTokens.Files.Entry

/-!
# File trees

A tree holds files at paths of names; the directories on the way to them, and any others listed,
are in the tree too. A written path is followed name by name: every name but the last must lead to
a directory, and so must the last one if a slash or a dot follows it.
-/

namespace LoxTokens

/-- Files and directories, each at a path of names. -/
structure FileTree where
  /-- The files with their bytes. -/
  files : List (List String × List UInt8) := []
  /-- Directories, whether files are in them or not. -/
  directories : List (List String) := []
  deriving Repr

namespace FileTree

/-- The names of a written path: slashes in a row and dots name nothing. -/
def names (path : String) : List String :=
  (path.splitOn "/").filter fun name => name != "" && name != "."

/-- Put an entry at a written path, which names a directory if a slash ends it. -/
def insert (t : FileTree) (path : String) (bytes : List UInt8) : FileTree :=
  if path.endsWith "/" then { t with directories := names path :: t.directories }
  else { t with files := (names path, bytes) :: t.files }

/-- A directory stands at a path of names: at the root, or where anything in the tree is below. -/
def isDirectory (t : FileTree) (place : List String) : Bool :=
  place.isEmpty || t.directories.any place.isPrefixOf ||
    t.files.any fun (path, _) => place.isPrefixOf path && place != path

/-- What stands at a path of names. -/
def entry (t : FileTree) (place : List String) : Entry :=
  match t.files.lookup place with
  | some bytes => .file bytes
  | none => if t.isDirectory place then .directory else .absent .notFound

/-- The most bytes that a name can have. -/
def nameLimit : Nat := 255

/-- The number of bytes at which a written path is too long. -/
def pathLimit : Nat := 4096

/-- Follow one name, from where a directory must be. Two dots lead back. -/
def follow (t : FileTree) (place : List String) (name : String) : Except Cause (List String) :=
  if !t.isDirectory place then .error .notDirectory
  else if name == "" || name == "." then .ok place
  else if name == ".." then .ok place.dropLast
  else if nameLimit < name.utf8ByteSize then .error .nameTooLong
  else if (t.entry (place ++ [name])).isPresent then .ok (place ++ [name])
  else .error .notFound

/-- What stands at a written path. -/
def lookup (t : FileTree) (path : String) : Entry :=
  if path.toList.contains '\x00' then .absent .nulInName
  else if path.isEmpty then .absent .notFound
  else if pathLimit ≤ path.utf8ByteSize then .absent .nameTooLong
  else
    match (path.splitOn "/").foldlM t.follow [] with
    | .ok place => t.entry place
    | .error cause => .absent cause

end FileTree

end LoxTokens
