import LoxTokens.Diagnostic.Log
import LoxTokens.Files.Entry
import LoxTokens.Listing
import LoxTokens.Lexer

/-!
# Inspections

An inspection scans a text, lists its tokens on one sink and then reports its errors on another.
The errors are on record before the first token is written: where a log refuses one of them, no
token is written. If the tokens cannot be written nothing is reported.
-/

namespace LoxTokens

/-- Write the report of each diagnostic on a line of its own. -/
def Log.report (log : Log) (err : Sink) : Sink × Option Failure :=
  let (err, cause) := err.writeAll (log.entries.flatMap Diagnostic.parts)
  (err, cause.map .transfer)

/-- The reports are written as a whole, wherever they are cut. -/
theorem Log.report_eq (log : Log) (err : Sink) :
    log.report err =
      let (err, cause) := err.write (log.entries.flatMap fun d => d.text.toList ++ ['\n'])
      (err, cause.map .transfer) := by
  rw [report, Sink.writeAll_flatMap Diagnostic.flatten_parts]

/-- What listing the tokens of a text leads to. -/
structure Listed where
  /-- Where the tokens were written. -/
  out : Sink
  /-- Where the errors were recorded. -/
  log : Log
  /-- The error that the log refused, which ended the work before anything was written. -/
  refused : Option Diagnostic
  /-- The scan, unless its tokens could not be written. It is handed over if nothing was refused. -/
  outcome : Except Failure Scan

/-- What inspecting a text leads to. -/
structure Inspected where
  /-- Where the tokens were written. -/
  out : Sink
  /-- Where the errors were reported. -/
  err : Sink
  /-- Whether the text has errors, if everything could be written. -/
  outcome : Except Failure Bool

namespace Inspection

/-- Record the errors of a text and, unless one of them is refused, write its tokens. -/
def list (c : Config) (text : List Char) (out : Sink) (log : Log) : Listed :=
  let scan := Scan.ofText text
  match log.recordAll scan.diagnostics with
  | (log, some d) => ⟨out, log, some d, .ok scan⟩
  | (log, none) =>
    match Listing.write c scan.tokens out with
    | (out, some failure) => ⟨out, log, none, .error failure⟩
    | (out, none) => ⟨out, log, none, .ok scan⟩

/-- Write the tokens of a text and report its errors. -/
def ofText (c : Config) (text : List Char) (out err : Sink) : Inspected :=
  let listed := list c text out {}
  match listed.outcome with
  | .error failure => ⟨listed.out, err, .error failure⟩
  | .ok _ =>
    match listed.log.report err with
    | (err, some failure) => ⟨listed.out, err, .error failure⟩
    | (err, none) => ⟨listed.out, err, .ok listed.log.hasErrors⟩

/-- Inspect the text of a file. -/
def ofFile (c : Config) (files : String → Entry) (path : String) (out err : Sink) : Inspected :=
  match (files path).contents with
  | .error cause => ⟨out, err, .error (.source path cause)⟩
  | .ok text => ofText c text out err

section

variable {c : Config} {text : List Char} {out err : Sink} {log kept : Log}

/-- A refusal leaves the sink as it is. -/
theorem list_of_refused {d : Diagnostic}
    (h : log.recordAll (Scan.ofText text).diagnostics = (kept, some d)) :
    list c text out log = ⟨out, kept, some d, .ok (Scan.ofText text)⟩ := by
  simp only [list, h]

/-- Otherwise the tokens are written. -/
theorem list_of_recorded (h : log.recordAll (Scan.ofText text).diagnostics = (kept, none)) :
    list c text out log =
      { out := (Listing.write c (Scan.ofText text).tokens out).1
        log := kept
        refused := none
        outcome := (Listing.write c (Scan.ofText text).tokens out).2.elim (.ok (Scan.ofText text))
          .error } := by
  simp only [list, h]
  rcases Listing.write c (Scan.ofText text).tokens out with ⟨out, _ | failure⟩ <;> rfl

/-- A fresh log keeps all that is reported about a text. -/
theorem recordAll_diagnostics (s : Scan) :
    ({} : Log).recordAll s.diagnostics = ({ entries := s.diagnostics }, none) :=
  Log.recordAll_of_not_strict rfl s.diagnostics

/-- It has errors if the text has. -/
theorem hasErrors_diagnostics (s : Scan) :
    ({ entries := s.diagnostics } : Log).hasErrors = s.hasErrors := by
  rw [Log.hasErrors, Scan.hasErrors, Scan.diagnostics]
  cases s.errors with
  | nil => rfl
  | cons e es =>
    rw [List.map_cons, List.any_cons, LexError.level_diagnostic]
    rfl

/-- Sinks without a limit take the listing of the tokens and the reports of the errors. -/
theorem ofText_of_unlimited (hout : out.capacity = .unlimited) (herr : err.capacity = .unlimited) :
    ofText c text out err =
      { out := out.take (Utf8.encode (Listing.text c (Scan.ofText text).tokens))
        err := err.take (Utf8.encode
          ((Scan.ofText text).diagnostics.flatMap fun d => d.text.toList ++ ['\n']))
        outcome := .ok (Scan.ofText text).hasErrors } := by
  simp only [ofText, list, recordAll_diagnostics, Listing.write_of_unlimited hout, Log.report_eq,
    Sink.write_of_unlimited herr, Option.map_none, hasErrors_diagnostics]

/-- Inspecting a file that can be read is inspecting its text. -/
theorem ofFile_of_contents {files : String → Entry} {path : String}
    (h : (files path).contents = .ok text) :
    ofFile c files path out err = ofText c text out err := by
  rw [ofFile, h]

end

end Inspection

end LoxTokens
