import LoxTokens.CommandLine.Arguments
import LoxTokens.Config.Reading
import LoxTokens.Prompt

/-!
# Answers to requests

A request is answered by what is written on two sinks and by an exit code. The settings are loaded
before the source text is looked at, and arguments change the loaded settings. A file with errors
has an exit code of its own; at the prompt errors do not count. A failure is reported on one line
and decides the exit code.
-/

namespace LoxTokens.CommandLine

/-- What the program finds around it. -/
structure Surroundings where
  /-- What stands at a path. -/
  files : String → Entry
  /-- Where a user keeps settings. -/
  userDirectory : Option String
  /-- What is entered at the prompt. -/
  input : List UInt8

/-- How a request was answered. -/
structure Answer where
  /-- The exit code. -/
  code : Nat
  /-- Where tokens were written. -/
  out : Sink
  /-- Where errors and failures were reported. -/
  err : Sink

/-- Everything went well. -/
def success : Nat := 0

/-- The arguments make no sense. -/
def misused : Nat := 64

/-- The source text has errors. -/
def faulty : Nat := 65

/-- A line at the prompt could not be edited. -/
def broken : Nat := 101

/-- What is said about such a line. -/
def tornText : String := "a backspace would tear a character\n"

/-- Where the arguments decide, they win over the settings. -/
def Options.apply (o : Options) (c : Config) : Config :=
  { c with format := o.format.getD c.format, showEof := c.showEof && !o.hideEof }

/-- Report a failure. -/
def Answer.ofFailure (heading : String) (f : Failure) (out err : Sink) : Answer :=
  ⟨f.exitCode, out, (err.write ("error: " ++ heading ++ f.report ++ "\n").toList).1⟩

/-- Inspect a file, or what is entered at the prompt. -/
def inspect (c : Config) (file : Option String) (s : Surroundings) (out err : Sink) : Answer :=
  match file with
  | some path =>
    match Inspection.ofFile c s.files path out err with
    | ⟨out, err, .ok hadErrors⟩ => ⟨if hadErrors then faulty else success, out, err⟩
    | ⟨out, err, .error f⟩ => Answer.ofFailure "" f out err
  | none =>
    match Prompt.inspect c out err (Prompt.lines s.input) with
    | (out, err, .finished) => ⟨success, out, err⟩
    | (out, err, .failed f) => Answer.ofFailure "interactive prompt failed: " f out err
    | (out, err, .torn) => ⟨broken, out, (err.write tornText.toList).1⟩

/-- The name and the version of the program. -/
def versionText : String := "loxscan 0.1.0\n"

/-- How the program is called. -/
def usageText : String := "Usage: loxscan [OPTIONS] [FILE]\n"

/-- What the program does and what its arguments mean. -/
def helpText : String :=
  "Scan Lox source into tokens\n\n" ++ usageText ++ "\n" ++
  "Arguments:\n" ++
  "  [FILE]  Source file to scan (starts an interactive prompt when omitted)\n\n" ++
  "Options:\n" ++
  "  -v, --verbose          Enable verbose output [env: LOXSCAN_VERBOSE=]\n" ++
  "  -c, --config <CONFIG>  Path to configuration file [env: LOXSCAN_CONFIG=]\n" ++
  "      --no-color         Disable color output [env: LOXSCAN_NO_COLOR=]\n" ++
  "  -f, --format <FORMAT>  Token output format (default: from config) " ++
  "[possible values: text, json]\n" ++
  "      --hide-eof         Do not print the trailing EOF token\n" ++
  "  -h, --help             Print help\n" ++
  "  -V, --version          Print version\n"

/-- Answer a request. -/
def answer (request : Request) (s : Surroundings) (out err : Sink) : Answer :=
  match request with
  | .help => ⟨success, (out.write helpText.toList).1, err⟩
  | .version => ⟨success, (out.write versionText.toList).1, err⟩
  | .misuse => ⟨misused, out, (err.write usageText.toList).1⟩
  | .inspect options =>
    match Config.load s.files s.userDirectory options.config with
    | .ok c => inspect (options.apply c) options.file s out err
    | .error f => Answer.ofFailure "" f out err

/-- Answer what arguments and environment ask for, on sinks that take everything. -/
def respond (arguments : List String) (environment : String → Option String) (s : Surroundings) :
    Answer :=
  answer (.of arguments environment) s {} {}

/-- Where settings can be had and nothing else is asked for, texts are inspected. -/
theorem respond_of_inspect {arguments : List String} {environment : String → Option String}
    {s : Surroundings} {options : Options} {c : Config}
    (hrequest : Request.of arguments environment = .inspect options)
    (hload : Config.load s.files s.userDirectory options.config = .ok c) :
    respond arguments environment s = inspect (options.apply c) options.file s {} {} := by
  simp only [respond, hrequest, answer, hload]

end LoxTokens.CommandLine
