import LoxTokens.Config.Basic
import LoxTokens.Failure
import LoxTokens.Files.Entry
import LoxTokens.Toml.Document

/-!
# Reading settings

A settings file is a TOML document. A name that is missing keeps its default, and names that stand
for nothing are passed over. The format is named by a string, or by the only name in a table if
nothing is said about it there. An explicit file must exist; without one the working directory is
searched first and the directory of the user second.
-/

namespace LoxTokens.Config

/-- The format that a value stands for. -/
def format? : Toml.Value → Option Format
  | .string s => Format.ofName? s
  | .table _ [(name, content)] => if content.isEmpty then Format.ofName? name else none
  | _ => none

/-- The truth value that a value is. -/
def truth? : Toml.Value → Option Bool
  | .boolean b => some b
  | _ => none

/-- The text that a value is. -/
def text? : Toml.Value → Option String
  | .string s => some s
  | _ => none

/-- What a name is set to, or the default. -/
def setting {α : Type} (entries : Toml.Entries) (name : String) (read : Toml.Value → Option α)
    (default : α) : Option α :=
  match entries.lookup name with
  | none => some default
  | some value => read value

/-- The settings among named values. -/
def ofEntries (entries : Toml.Entries) : Option Config := do
  let defaults : Config := {}
  return {
    format := ← setting entries "format" format? defaults.format
    showEof := ← setting entries "show_eof" truth? defaults.showEof
    prompt := ← setting entries "prompt" text? defaults.prompt
    history := ← setting entries "history" truth? defaults.history }

/-- The settings in a text. -/
def ofText (text : List Char) : Except Failure Config :=
  match (Toml.document text).bind ofEntries with
  | some c => .ok c
  | none => .error (.settings "Failed to parse configuration:")

/-- The settings in a file that must exist. -/
def ofFile (files : String → Entry) (path : String) : Except Failure Config :=
  if (files path).isPresent then
    match (files path).contents with
    | .ok text => ofText text
    | .error cause => .error (.transfer cause)
  else .error (.settings ("Configuration file not found: " ++ path))

/-- The name of a settings file. -/
def fileName : String := "loxscan.toml"

/-- The settings file of a user, given the directory of the user's settings. -/
def userFile (directory : String) : String := directory ++ "/loxscan/" ++ fileName

/-- The places of settings files that are searched, the first one first. -/
def places (userDirectory : Option String) : List String :=
  fileName :: (userDirectory.map userFile).toList

/-- The settings in the first file there is, or the defaults. -/
def search (files : String → Entry) (userDirectory : Option String) : Except Failure Config :=
  match (places userDirectory).find? fun path => (files path).isPresent with
  | some path => ofFile files path
  | none => .ok {}

/-- The settings in an explicit file, or else in the first of the usual places. -/
def load (files : String → Entry) (userDirectory : Option String) :
    Option String → Except Failure Config
  | some path => ofFile files path
  | none => search files userDirectory

end LoxTokens.Config
