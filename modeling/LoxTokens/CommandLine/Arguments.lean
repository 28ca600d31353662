import LoxTokens.Config.Basic

/-!
# Arguments

Arguments are switches, settings with a value, and the name of a file. They are taken from left to
right: asking for help or for the version ends this, and so does the first mistake. Each switch and
each setting can be given once, and values cannot be empty. What the arguments leave open can be
given by the environment.

Short names can stand together behind one dash, and a value may follow the name of its setting
directly, with or without an equals sign. Behind two dashes alone everything names a file.
-/

namespace LoxTokens.CommandLine

/-- What can be asked for without a value. -/
inductive Switch where
  | help | version | verbose | noColor | hideEof
  deriving DecidableEq, Repr

/-- What can be asked for with a value. -/
inductive Setting where
  | config | format
  deriving DecidableEq, Repr

/-- What one or two arguments say. -/
inductive Item where
  /-- A switch. -/
  | switch (s : Switch)
  /-- A setting and its value. -/
  | setting (s : Setting) (value : String)
  /-- The name of a file. -/
  | file (name : String)
  /-- Nothing that makes sense. -/
  | mistake
  deriving DecidableEq, Repr

/-- What a long or a short name stands for. -/
inductive Meaning where
  /-- A switch. -/
  | switch (s : Switch)
  /-- A setting. -/
  | setting (s : Setting)
  /-- Nothing. -/
  | unknown
  deriving DecidableEq, Repr

/-- The meaning of a name behind two dashes. -/
def Meaning.ofName (name : String) : Meaning :=
  match name with
  | "help" => .switch .help
  | "version" => .switch .version
  | "verbose" => .switch .verbose
  | "no-color" => .switch .noColor
  | "hide-eof" => .switch .hideEof
  | "config" => .setting .config
  | "format" => .setting .format
  | _ => .unknown

/-- The meaning of a letter behind one dash. -/
def Meaning.ofLetter : Char → Meaning
  | 'h' => .switch .help
  | 'V' => .switch .version
  | 'v' => .switch .verbose
  | 'c' => .setting .config
  | 'f' => .setting .format
  | _ => .unknown

/-- An argument that starts with a dash is no value, except for the dash alone. -/
def isValue (argument : String) : Bool := argument == "-" || !argument.startsWith "-"

/-- Letters behind one dash. A setting takes the letters behind it as its value, and is handed back
if there are none. -/
def cluster : List Char → List Item × Option Setting
  | [] => ([], none)
  | c :: rest =>
    match Meaning.ofLetter c with
    | .switch s =>
      let (items, pending) := cluster rest
      (.switch s :: items, pending)
    | .setting s =>
      match rest with
      | [] => ([], some s)
      | '=' :: value => ([.setting s (String.ofList value)], none)
      | value => ([.setting s (String.ofList value)], none)
    | .unknown => ([.mistake], none)

/-- A name behind two dashes, with an equals sign and a value or without. -/
def long (text : List Char) : List Item × Option Setting :=
  let name := text.takeWhile (· != '=')
  match Meaning.ofName (String.ofList name), text.drop name.length with
  | .switch s, [] => ([.switch s], none)
  | .setting s, [] => ([], some s)
  | .setting s, _ :: value => ([.setting s (String.ofList value)], none)
  | _, _ => ([.mistake], none)

/-- What an argument says by itself, and the setting that waits for its value. -/
def items (argument : String) : List Item × Option Setting :=
  match argument.toList with
  | '-' :: '-' :: text => long text
  | '-' :: c :: rest => cluster (c :: rest)
  | _ => ([.file argument], none)

/-- What arguments say. -/
def read : List String → List Item
  | [] => []
  | argument :: rest =>
    if argument == "--" then rest.map .file
    else
      let (said, pending) := items argument
      match pending with
      | none => said ++ read rest
      | some s =>
        match rest with
        | value :: more =>
          if isValue value then said ++ .setting s value :: read more else said ++ [.mistake]
        | [] => said ++ [.mistake]

/-- What the program is asked to do, apart from help. -/
structure Options where
  /-- The file to inspect, or else the prompt is used. -/
  file : Option String := none
  /-- More is logged. -/
  verbose : Bool := false
  /-- An explicit settings file. -/
  config : Option String := none
  /-- The log is not coloured. -/
  noColor : Bool := false
  /-- A format that replaces the one of the settings. -/
  format : Option Format := none
  /-- The token that ends a text is not shown. -/
  hideEof : Bool := false
  deriving DecidableEq, Repr

/-- What the program is asked to do. -/
inductive Request where
  /-- Explain the arguments. -/
  | help
  /-- Name the version. -/
  | version
  /-- The arguments or the environment make no sense. -/
  | misuse
  /-- Inspect texts. -/
  | inspect (options : Options)
  deriving DecidableEq, Repr

/-- Take one more thing that arguments say, or end with another request. -/
def Options.add (o : Options) : Item → Except Request Options
  | .switch .help => .error .help
  | .switch .version => .error .version
  | .switch .verbose => if o.verbose then .error .misuse else .ok { o with verbose := true }
  | .switch .noColor => if o.noColor then .error .misuse else .ok { o with noColor := true }
  | .switch .hideEof => if o.hideEof then .error .misuse else .ok { o with hideEof := true }
  | .setting .config path =>
    if o.config.isSome ∨ path.isEmpty then .error .misuse else .ok { o with config := some path }
  | .setting .format name =>
    match o.format, Format.ofName? name with
    | none, some format => .ok { o with format := some format }
    | _, _ => .error .misuse
  | .file path =>
    if o.file.isSome ∨ path.isEmpty then .error .misuse else .ok { o with file := some path }
  | .mistake => .error .misuse

/-- A switch that the environment can set to a truth value. -/
def switchFrom (given : Bool) : Option String → Except Request Bool
  | none => .ok given
  | some value =>
    if given then .ok true
    else if value = "true" then .ok true
    else if value = "false" then .ok false
    else .error .misuse

/-- Take from the environment what the arguments leave open. -/
def Options.complete (o : Options) (environment : String → Option String) :
    Except Request Options := do
  let verbose ← switchFrom o.verbose (environment "LOXSCAN_VERBOSE")
  let noColor ← switchFrom o.noColor (environment "LOXSCAN_NO_COLOR")
  match o.config, environment "LOXSCAN_CONFIG" with
  | none, some path =>
    if path.isEmpty then .error .misuse
    else .ok { o with verbose, noColor, config := some path }
  | _, _ => .ok { o with verbose, noColor }

/-- What arguments and environment ask for. -/
def Request.of (arguments : List String) (environment : String → Option String) : Request :=
  match (read arguments).foldlM Options.add {} >>= (·.complete environment) with
  | .ok options => .inspect options
  | .error request => request

end LoxTokens.CommandLine
