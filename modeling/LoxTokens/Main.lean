import LoxTokens.CommandLine.Answer

/-!
# The program

Gathers what a request needs from the system, answers it and writes the answer.
-/

namespace LoxTokens.Main

/-- The code of an error of the system and what the system says about it. -/
def codeOf? : IO.Error → Option (UInt32 × String)
  | .alreadyExists _ code details | .interrupted _ code details | .invalidArgument _ code details
  | .inappropriateType _ code details | .noFileOrDirectory _ code details
  | .noSuchThing _ code details | .permissionDenied _ code details
  | .resourceExhausted _ code details | .hardwareFault code details
  | .illegalOperation code details | .otherError code details | .protocolError code details
  | .resourceBusy code details | .resourceVanished code details | .timeExpired code details
  | .unsatisfiedConstraints code details | .unsupportedOperation code details =>
    some (code, details)
  | .unexpectedEof | .userError _ => none

/-- The cause with a code. Some are given as the negative of what they are. -/
def causeWith (code : UInt32) (details : String) : Cause :=
  match (min code (0 - code)).toNat with
  | 2 => .notFound
  | 13 => .permissionDenied
  | 20 => .notDirectory
  | 21 => .isDirectory
  | 22 => .nulInName
  | 36 => .nameTooLong
  | 40 => .tooManyLinks
  | number => .other (details ++ " (os error " ++ toString number ++ ")")

/-- The cause behind an error of the system. -/
def causeOf (e : IO.Error) : Cause :=
  match codeOf? e with
  | some (code, details) => causeWith code details
  | none => .other (toString e)

/-- A path leads to something, whether that can be opened or not. -/
def leads (path : String) : IO Bool := do
  try
    let _ ← IO.FS.realPath path
    return true
  catch _ => return false

/-- What stands at a path. -/
def look (path : String) : IO Entry := do
  try
    return .file (← IO.FS.readBinFile path).toList
  catch e =>
    match causeOf e with
    | .isDirectory => return .directory
    | cause => return if ← leads path then .closed cause else .absent cause

/-- Everything that is entered. -/
partial def entered (input : IO.FS.Stream) (before : List UInt8) : IO (List UInt8) := do
  let bytes ← input.read 65536
  if bytes.isEmpty then return before.reverse
  entered input (bytes.toList.reverse ++ before)

/-- The directory in which the user keeps settings. -/
def userDirectory : IO (Option String) := do
  match ← IO.getEnv "XDG_CONFIG_HOME", ← IO.getEnv "HOME" with
  | some directory, home =>
    if directory.startsWith "/" then return some directory else return home.map (· ++ "/.config")
  | none, home => return home.map (· ++ "/.config")

/-- What the arguments and the environment ask for. -/
def request (arguments : List String) : IO CommandLine.Request := do
  let names := ["LOXSCAN_VERBOSE", "LOXSCAN_NO_COLOR", "LOXSCAN_CONFIG"]
  let values ← names.mapM fun name => IO.getEnv name
  return .of arguments fun name => ((names.zip values).lookup name).join

/-- What a request needs. -/
def surroundings (request : CommandLine.Request) : IO CommandLine.Surroundings := do
  let directory ← userDirectory
  match request with
  | .inspect options =>
    let paths := options.file.toList ++ options.config.toList ++ Config.places directory
    let entries ← paths.mapM look
    let input ← if options.file.isSome then pure [] else do entered (← IO.getStdin) []
    let files (path : String) : Entry := ((paths.zip entries).lookup path).getD (.absent .notFound)
    return ⟨files, directory, input⟩
  | _ => return ⟨fun _ => .absent .notFound, directory, []⟩

/-- Write what a sink took. -/
def pass (sink : Sink) (stream : IO.FS.Stream) : IO Unit := do
  stream.write ⟨sink.accepted.toArray⟩
  stream.flush

/-- Answer a request. Where the output takes nothing, the answer is the one for a full device. -/
def run (arguments : List String) : IO UInt32 := do
  let request ← request arguments
  let answer := CommandLine.answer request (← surroundings request)
  let written := answer {} {}
  let reply ←
    try
      pass written.out (← IO.getStdout)
      pure written
    catch _ => pure (answer { capacity := .full } {})
  pass reply.err (← IO.getStderr)
  return UInt32.ofNat reply.code

end LoxTokens.Main

/-- Run the program. -/
def main (arguments : List String) : IO UInt32 := LoxTokens.Main.run arguments
