import LoxTokens.Proofs.Newline
import LoxTokens.Prompt

/-!
# Line by line

Lines that leave no string open can be inspected one by one or as one file. The file gives all that
the lines give, in order. Only a line alone is always line 1, where the file knows the number of
each line, so that number is what differs in the reports.
-/

namespace LoxTokens

/-- Lines, each ended by a newline. -/
def ofLines (lines : List (List Char)) : List Char := lines.flatMap (· ++ ['\n'])

/-- What the report of an error on a line starts with. -/
def heading (n : Nat) : List UInt8 := Utf8.encode ("[line " ++ toString n ++ "] ").toList

/-- The heading of a report does not end its line. -/
theorem newline_not_mem_heading (n : Nat) : 10 ∉ heading n := by
  have hdigits : '\n' ∉ Nat.toDigits 10 n := by
    intro hm
    have hdigit := Nat.isDigit_of_mem_toDigits (by decide) (by decide) hm
    cases hdigit
  rw [heading, Utf8.newline_mem_encode_iff]
  simpa [Nat.repr_eq_ofList_toDigits] using hdigits

/-- Put another number in the place of line 1 where a report starts with it. -/
def reheaded (n : Nat) (report : List UInt8) : List UInt8 :=
  match report.dropPrefix? (heading 1) with
  | some rest => heading n ++ rest
  | none => report

/-- Put another number in the place of line 1 in all reports, each of which is a line. -/
def renumbered (n : Nat) (bytes : List UInt8) : List UInt8 :=
  (Prompt.lines bytes).flatMap (reheaded n)

namespace LexError

/-- What follows the heading in the report of an error. -/
def complaint (e : LexError) : List UInt8 := Utf8.encode ("Error: " ++ e.message).toList

variable {k : Shift}

theorem line_shift (e : LexError) : (e.shift k).line = e.line + k.lines := by
  cases e <;> rfl

theorem complaint_shift (e : LexError) : (e.shift k).complaint = e.complaint := by
  cases e <;> rfl

theorem newline_not_mem_complaint (e : LexError) : 10 ∉ e.complaint := by
  have hunexpected : '\n' ∉ ("Error: " ++ "Unexpected character.").toList := by decide
  have hunterminated : '\n' ∉ ("Error: " ++ "Unterminated string.").toList := by decide
  rw [complaint, Utf8.newline_mem_encode_iff]
  cases e
  · exact hunexpected
  · exact hunterminated

theorem encode_text_diagnostic (e : LexError) :
    Utf8.encode (e.diagnostic.text.toList ++ ['\n']) = heading e.line ++ e.complaint ++ [10] := by
  rw [text_diagnostic, heading, complaint, Utf8.encode_append]
  simp only [String.toList_append, Utf8.encode_append, List.append_assoc]
  rfl

end LexError

/-- What is reported of errors if their text stands some lines further down. -/
def reports (n : Nat) (es : List LexError) : List UInt8 :=
  es.flatMap fun e => heading (e.line + n) ++ e.complaint ++ [10]

theorem reports_cons (n : Nat) (e : LexError) (es : List LexError) :
    reports n (e :: es) = heading (e.line + n) ++ e.complaint ++ [10] ++ reports n es := rfl

theorem encode_diagnostics (s : Scan) :
    Utf8.encode (s.diagnostics.flatMap fun d => d.text.toList ++ ['\n']) = reports 0 s.errors := by
  rw [Scan.diagnostics, List.flatMap_map, Utf8.encode_flatMap]
  simp only [LexError.encode_text_diagnostic]
  rfl

theorem reports_append (n : Nat) (es fs : List LexError) :
    reports n (es ++ fs) = reports n es ++ reports n fs := List.flatMap_append

theorem reports_map_shift (n : Nat) (k : Shift) (es : List LexError) :
    reports n (es.map (LexError.shift k)) = reports (k.lines + n) es := by
  simp only [reports, List.flatMap_map, LexError.line_shift, LexError.complaint_shift,
    Nat.add_assoc]

/-- Each report is a line. -/
theorem lines_reports (n : Nat) (es : List LexError) :
    Prompt.lines (reports n es) =
      es.map fun e => heading (e.line + n) ++ e.complaint ++ [10] := by
  refine Prompt.lines_flatMap fun e _ hm => ?_
  exact (List.mem_append.1 hm).elim (newline_not_mem_heading _) e.newline_not_mem_complaint

theorem reheaded_heading (n : Nat) (rest : List UInt8) :
    reheaded n (heading 1 ++ rest) = heading n ++ rest := by
  rw [reheaded, List.dropPrefix?_append_of_beq rest (beq_self_eq_true (heading 1))]

/-- A report in front of others is renumbered on its own. -/
theorem renumbered_append {rest : List UInt8} (h : 10 ∉ rest) (n : Nat) (bytes : List UInt8) :
    renumbered n (heading 1 ++ rest ++ [10] ++ bytes) =
      heading n ++ rest ++ [10] ++ renumbered n bytes := by
  have hline : 10 ∉ heading 1 ++ rest :=
    fun hm => (List.mem_append.1 hm).elim (newline_not_mem_heading 1) h
  rw [renumbered, List.append_assoc _ [10], List.singleton_append,
    Prompt.lines_append_newline hline, List.flatMap_cons, List.append_assoc (heading 1),
    reheaded_heading, ← List.append_assoc, renumbered]

/-- Where all errors are on line 1, another number can be put in its place. -/
theorem renumbered_reports {es : List LexError} (h : ∀ e ∈ es, e.line = 1) (n : Nat) :
    renumbered (1 + n) (reports 0 es) = reports n es := by
  induction es with
  | nil => rfl
  | cons e es ih =>
    have hrest := ih fun f hf => h f (List.mem_cons_of_mem e hf)
    rw [reports_cons, reports_cons, Nat.add_zero, h e List.mem_cons_self,
      renumbered_append e.newline_not_mem_complaint, hrest]

/-- The line of a text on which an error is found: one more than the newlines in front of a
character that starts nothing, or than all newlines where a string is not closed. -/
def LexError.lineIn (source : List Char) : LexError → Nat
  | unexpectedCharacter _ span => 1 + ((Utf8.encode source).take span.start).count 10
  | unterminatedString .. => 1 + source.count '\n'

/-- An error knows its line. -/
theorem LexError.line_eq_lineIn {source : List Char} {e : LexError}
    (h : e ∈ (Scan.ofText source).errors) : e.line = e.lineIn source := by
  rw [Scan.ofText_eq_ofPieces] at h
  cases e with
  | unexpectedCharacter c s =>
    obtain ⟨front, back, hc⟩ := covers_of_unexpectedCharacter_mem h
    have hfront : (Utf8.encode source).take s.start = Utf8.encode front := by
      rw [hc.source_eq, hc.start_eq, List.append_assoc, Utf8.take_size_encode]
    rw [lineIn, hfront, Utf8.count_newline_encode]
    exact hc.line_eq
  | unterminatedString opened s =>
    obtain ⟨-, -, -, -, -, rfl⟩ := covers_of_unterminatedString_mem h
    rw [line, span, Location.after_start]
    rfl

/-- A text without newlines has its errors on line 1. -/
theorem line_eq_one_of_mem_errors {text : List Char} (h : '\n' ∉ text) {e : LexError}
    (he : e ∈ (Scan.ofText text).errors) : e.line = 1 := by
  rw [LexError.line_eq_lineIn he]
  cases e with
  | unexpectedCharacter c s =>
    have hbytes : 10 ∉ (Utf8.encode text).take s.start :=
      mt List.mem_of_mem_take (mt Utf8.newline_mem_encode_iff.1 h)
    rw [LexError.lineIn, List.count_eq_zero_of_not_mem hbytes]
  | unterminatedString opened s => rw [LexError.lineIn, List.count_eq_zero_of_not_mem h]

namespace Listing

theorem entries_append (ts us : List Token) : entries (ts ++ us) = entries ts ++ entries us :=
  List.flatMap_append

/-- Entries do not show places. -/
theorem entries_map_shift (k : Shift) (ts : List Token) :
    entries (ts.map (Token.shift k)) = entries ts := by
  rw [entries, List.flatMap_map]
  rfl

/-- A plain list without the end shows all other tokens. -/
theorem text_of_not_showEof {c : Config} (hformat : c.format = .text) (hend : c.showEof = false)
    (ts : List Token) : text c ts = entries (proper ts) := by
  simp only [text, hformat, shown, hend, Bool.false_or, proper]

end Listing

theorem proper_map_shift (k : Shift) (ts : List Token) :
    proper (ts.map (Token.shift k)) = (proper ts).map (Token.shift k) := List.filter_map

/-- A newline between two texts adds no entry. -/
theorem entries_append_newline {a : List Char} (h : (Scan.ofText a).Closed) (b : List Char) :
    Listing.entries (proper (Scan.ofText (a ++ '\n' :: b)).tokens) =
      Listing.entries (proper (Scan.ofText a).tokens) ++
        Listing.entries (proper (Scan.ofText b).tokens) := by
  have hproper : proper (tokensFrom {} (pieces a)) = proper (Scan.ofText a).tokens := by
    rw [← proper_tokens, proper, proper, List.filter_filter]
    simp only [Bool.and_self]
  rw [Scan.ofText_append_newline h, proper_append, hproper, Listing.entries_append, Scan.shift,
    proper_map_shift, Listing.entries_map_shift]

/-- It moves what is reported of the second text below the first. -/
theorem reports_append_newline {a : List Char} (h : (Scan.ofText a).Closed) (hline : '\n' ∉ a)
    (b : List Char) (n : Nat) :
    reports n (Scan.ofText (a ++ '\n' :: b)).errors =
      reports n (Scan.ofText a).errors ++ reports (n + 1) (Scan.ofText b).errors := by
  rw [Scan.ofText_append_newline h, reports_append, Scan.shift, reports_map_shift,
    Shift.behind_newline, List.count_eq_zero_of_not_mem hline, Nat.add_comm]

theorem hasErrors_append_newline {a : List Char} (h : (Scan.ofText a).Closed) (b : List Char) :
    (Scan.ofText (a ++ '\n' :: b)).hasErrors =
      ((Scan.ofText a).hasErrors || (Scan.ofText b).hasErrors) := by
  rw [Scan.ofText_append_newline h, Scan.hasErrors, Scan.hasErrors, Scan.hasErrors, Scan.shift]
  cases (Scan.ofText a).errors with
  | nil => rw [List.nil_append, List.isEmpty_map, List.isEmpty_nil, Bool.not_true, Bool.false_or]
  | cons e es => rfl

@[simp] theorem ofLines_nil : ofLines [] = [] := rfl

theorem ofLines_cons (line : List Char) (lines : List (List Char)) :
    ofLines (line :: lines) = line ++ '\n' :: ofLines lines := by
  rw [ofLines, List.flatMap_cons, List.append_assoc]
  rfl

section

variable {lines : List (List Char)}

/-- The entries of lines are those of each line, in order. -/
theorem entries_ofLines (h : ∀ l ∈ lines, (Scan.ofText l).Closed) :
    Listing.entries (proper (Scan.ofText (ofLines lines)).tokens) =
      lines.flatMap fun l => Listing.entries (proper (Scan.ofText l).tokens) := by
  induction lines with
  | nil =>
    rw [ofLines_nil, Scan.ofText_nil]
    rfl
  | cons l lines ih =>
    have hlines := ih fun m hm => h m (List.mem_cons_of_mem l hm)
    rw [ofLines_cons, entries_append_newline (h l List.mem_cons_self), hlines, List.flatMap_cons]

/-- With some lines in front of them, what is reported of lines counts on from there. -/
theorem reports_ofLines (h : ∀ l ∈ lines, '\n' ∉ l ∧ (Scan.ofText l).Closed) (n : Nat) :
    reports n (Scan.ofText (ofLines lines)).errors =
      (lines.zipIdx (1 + n)).flatMap fun (l, i) =>
        renumbered i (reports 0 (Scan.ofText l).errors) := by
  -- The lines behind the first one have one more line in front of them.
  induction lines generalizing n with
  | nil =>
    rw [ofLines_nil, Scan.ofText_nil]
    rfl
  | cons l lines ih =>
    obtain ⟨hline, hclosed⟩ := h l List.mem_cons_self
    have hlines := ih (fun m hm => h m (List.mem_cons_of_mem l hm)) (n + 1)
    have hfirst : ∀ e ∈ (Scan.ofText l).errors, e.line = 1 :=
      fun e he => line_eq_one_of_mem_errors hline he
    rw [ofLines_cons, reports_append_newline hclosed hline, hlines, List.zipIdx_cons, Nat.add_assoc,
      List.flatMap_cons, ← renumbered_reports hfirst]

/-- Lines are in error if one of them is. -/
theorem hasErrors_ofLines (h : ∀ l ∈ lines, (Scan.ofText l).Closed) :
    (Scan.ofText (ofLines lines)).hasErrors = lines.any fun l => (Scan.ofText l).hasErrors := by
  induction lines with
  | nil =>
    rw [ofLines_nil, Scan.ofText_nil]
    rfl
  | cons l lines ih =>
    have hlines := ih fun m hm => h m (List.mem_cons_of_mem l hm)
    rw [ofLines_cons, hasErrors_append_newline (h l List.mem_cons_self), hlines, List.any_cons]

/-- A file of lines and the prompt agree. On sinks without a limit, the plain list of the tokens of
the file is what the lines give one after another, and so are its reports, with the number of each
line in the place of line 1. The file is in error if and only if some line is. -/
theorem Inspection.ofFile_ofLines {c : Config} {files : String → Entry} {path : String}
    {out err : Sink} (hformat : c.format = .text) (hend : c.showEof = false)
    (hout : out.capacity = .unlimited) (herr : err.capacity = .unlimited)
    (hfile : files path = .file (Utf8.encode (ofLines lines)))
    (hlines : ∀ l ∈ lines, '\n' ∉ l ∧ (Scan.ofText l).Closed) :
    (ofFile c files path out err).out.accepted =
        out.accepted ++ lines.flatMap (fun l => (ofText c l {} {}).out.accepted) ∧
      (ofFile c files path out err).err.accepted =
        err.accepted ++
          (lines.zipIdx 1).flatMap (fun (l, i) => renumbered i (ofText c l {} {}).err.accepted) ∧
      (∀ l ∈ lines, ∃ b, (ofText c l {} {}).outcome = .ok b) ∧
      ∃ b, (ofFile c files path out err).outcome = .ok b ∧
        (b = true ↔ ∃ l ∈ lines, (ofText c l {} {}).outcome = .ok true) := by
  have hclosed : ∀ l ∈ lines, (Scan.ofText l).Closed := fun l hl => (hlines l hl).2
  have hcontents : (files path).contents = .ok (ofLines lines) := by
    rw [hfile, Entry.contents_encode]
  have hline (l : List Char) : ofText c l {} {} = _ := ofText_of_unlimited rfl rfl
  rw [ofFile_of_contents hcontents, ofText_of_unlimited hout herr]
  simp only [hline, Sink.accepted_take, encode_diagnostics,
    Listing.text_of_not_showEof hformat hend]
  refine ⟨?_, ?_, fun l _ => ⟨_, rfl⟩, _, rfl, ?_⟩
  · rw [entries_ofLines hclosed, Utf8.encode_flatMap]
    rfl
  · rw [reports_ofLines hlines]
    rfl
  · rw [hasErrors_ofLines hclosed, List.any_eq_true]
    simp only [Except.ok.injEq]

/-- A report of the third line is headed by line 1 alone, and by line 3 in the file. -/
theorem Inspection.ofFile_ofLines_third :
    (∀ l ∈ [['1', '@'], ['"', '/', '/', '"'], ['#']], '\n' ∉ l ∧ (Scan.ofText l).Closed) ∧
      (ofText { showEof := false } ['#'] {} {}).err.accepted =
        Utf8.encode "[line 1] Error: Unexpected character.\n".toList ∧
      (ofFile { showEof := false }
          (fun _ => .file (Utf8.encode (ofLines [['1', '@'], ['"', '/', '/', '"'], ['#']])))
          "third.lox" {} {}).err.accepted =
        Utf8.encode ("[line 1] Error: Unexpected character.\n" ++
          "[line 3] Error: Unexpected character.\n").toList := by
  have hlines : ∀ l ∈ [['1', '@'], ['"', '/', '/', '"'], ['#']],
      '\n' ∉ l ∧ (Scan.ofText l).Closed := by decide +kernel
  obtain ⟨-, hreports, -⟩ := @ofFile_ofLines _ { showEof := false } (fun _ => _) "third.lox" {} {}
    rfl rfl rfl rfl rfl hlines
  exact ⟨hlines, by decide +kernel, hreports.trans (by decide +kernel)⟩

end

end LoxTokens
