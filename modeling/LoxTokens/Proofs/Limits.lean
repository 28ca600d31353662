import LoxTokens.Inspection

/-!
# Sinks with little room

A sink that has no room for all that is written takes the front that fits, byte for byte, and the
work fails. What was recorded about the text before is kept. Reports are written only behind a whole
listing, so a listing that does not fit leaves the other sink as it was. How the work fails depends
on where the listing is cut: inside a JSON array it is the encoding that fails, and not the writing.
-/

namespace LoxTokens

namespace Sink

/-- How many more bytes a sink takes, if there is a limit. -/
def room? (s : Sink) : Option Nat :=
  match s.capacity with
  | .unlimited => none
  | .bytes n => some (n - s.taken.length)
  | .full => some 0

/-- The front of some bytes that a sink has room for. -/
def fitting (s : Sink) (bytes : List UInt8) : List UInt8 :=
  match s.room? with
  | none => bytes
  | some l => bytes.take (min l bytes.length)

/-- There is no room for all of some bytes. -/
def TooSmallFor (s : Sink) (bytes : List UInt8) : Prop := ∃ l ∈ s.room?, l < bytes.length

instance (s : Sink) (bytes : List UInt8) : Decidable (s.TooSmallFor bytes) :=
  inferInstanceAs (Decidable (∃ l ∈ s.room?, l < bytes.length))

variable {s : Sink}

theorem room?_of_unlimited (h : s.capacity = .unlimited) : s.room? = none := by
  rw [room?, h]

theorem room?_of_bytes {n : Nat} (h : s.capacity = .bytes n) :
    s.room? = some (n - s.taken.length) := by
  rw [room?, h]

theorem room?_of_full (h : s.capacity = .full) : s.room? = some 0 := by
  rw [room?, h]

theorem fitting_of_room? {l : Nat} (h : s.room? = some l) (bytes : List UInt8) :
    s.fitting bytes = bytes.take l := by
  rw [fitting, h]
  exact List.take_eq_take_min.symm

theorem tooSmallFor_iff_of_room? {l : Nat} (h : s.room? = some l) (bytes : List UInt8) :
    s.TooSmallFor bytes ↔ l < bytes.length := by
  simp [TooSmallFor, h]

theorem not_tooSmallFor_of_room? (h : s.room? = none) (bytes : List UInt8) :
    ¬ s.TooSmallFor bytes := by
  simp [TooSmallFor, h]

/-- A sink takes the front of a text that fits. -/
theorem write_fst (s : Sink) (text : List Char) :
    (s.write text).1 = s.take (s.fitting (Utf8.encode text)) := by
  cases h : s.capacity with
  | unlimited => rw [write_of_unlimited h, fitting, room?_of_unlimited h]
  | bytes n => rw [write_of_bytes h, fitting_of_room? (room?_of_bytes h)]
  | full =>
    rw [write_of_full h, fitting_of_room? (room?_of_full h), List.take_zero]
    rfl

/-- Text that ends a line cannot be written just if it does not fit. -/
theorem isSome_write_iff {text : List Char} (hline : text ≠ [] → '\n' ∈ text) :
    (s.write text).2.isSome ↔ s.TooSmallFor (Utf8.encode text) := by
  cases h : s.capacity with
  | unlimited =>
    simp [write_of_unlimited h, not_tooSmallFor_of_room? (room?_of_unlimited h)]
  | bytes n =>
    rw [write_of_bytes h, tooSmallFor_iff_of_room? (room?_of_bytes h), ← Nat.not_le]
    split <;> simp_all
  | full =>
    rw [write_of_full h, tooSmallFor_iff_of_room? (room?_of_full h), List.length_pos_iff, ne_eq,
      Utf8.encode_eq_nil_iff]
    by_cases ht : text = []
    · simp [ht]
    · simp [hline ht, ht]

end Sink

namespace Listing

variable {c : Config} {ts : List Token} {out : Sink}

/-- A listing that is not empty ends a line. -/
theorem newline_mem_text (h : text c ts ≠ []) : '\n' ∈ text c ts := by
  unfold text at h ⊢
  cases hformat : c.format with
  | json => exact List.mem_append_right _ List.mem_cons_self
  | text =>
    rw [hformat] at h
    obtain ⟨t, us, hts⟩ := List.exists_cons_of_ne_nil (l := shown c ts) fun he => h (by
      simp only [he, entries, List.flatMap_nil])
    simp only [hts, entries, List.flatMap_cons, List.mem_append, List.mem_singleton]
    exact Or.inl (Or.inr trivial)

/-- The listing arrives in order whatever its format, and fails if it cannot be written. -/
theorem write_eq (c : Config) (ts : List Token) (out : Sink) :
    (write c ts out).1 = (out.write (text c ts)).1 ∧
      (write c ts out).2.isSome = (out.write (text c ts)).2.isSome := by
  unfold write text
  simp only [writeAll_parts, writeAll_arrayParts]
  cases c.format with
  | text => exact ⟨rfl, Option.isSome_map⟩
  | json =>
    simp only [Sink.write_append]
    rcases out.write (array (shown c ts)) with ⟨out, _ | cause⟩
    · exact ⟨rfl, Option.isSome_map⟩
    · exact ⟨rfl, rfl⟩

/-- The exit code of a listing that fails tells whether its array was complete. -/
theorem exitCode_of_write {f : Failure} (h : (write c ts out).2 = some f) :
    f.exitCode =
      if c.format = .json ∧ (out.write (array (shown c ts))).2.isSome then 70 else 74 := by
  unfold write at h
  simp only [writeAll_parts, writeAll_arrayParts] at h
  cases hformat : c.format with
  | text =>
    rw [hformat] at h
    obtain ⟨cause, -, rfl⟩ := Option.map_eq_some_iff.1 h
    rfl
  | json =>
    rw [hformat] at h
    rcases harray : out.write (array (shown c ts)) with ⟨rest, _ | cause⟩
    · simp only [harray] at h ⊢
      obtain ⟨cause, -, rfl⟩ := Option.map_eq_some_iff.1 h
      rfl
    · simp only [harray, Option.some.injEq] at h
      rw [← h]
      rfl

end Listing

namespace Inspection

/-- What a sink without a limit gets of a text. -/
def rendering (c : Config) (text : List Char) : List UInt8 := (list c text {} {}).out.accepted

/-- The reports of all errors of a text. -/
def reporting (text : List Char) : List UInt8 :=
  Utf8.encode ((Scan.ofText text).diagnostics.flatMap fun d => d.text.toList ++ ['\n'])

variable {c : Config} {text : List Char} {out err : Sink} {log kept : Log}

section

variable (h : log.recordAll (Scan.ofText text).diagnostics = (kept, none))
include h

theorem list_out (c : Config) (out : Sink) :
    (list c text out log).out = (Listing.write c (Scan.ofText text).tokens out).1 := by
  rw [list_of_recorded h]

theorem list_log (c : Config) (out : Sink) : (list c text out log).log = kept := by
  rw [list_of_recorded h]

theorem list_refused (c : Config) (out : Sink) : (list c text out log).refused = none := by
  rw [list_of_recorded h]

theorem list_outcome_eq_error_iff {f : Failure} :
    (list c text out log).outcome = .error f ↔
      (Listing.write c (Scan.ofText text).tokens out).2 = some f := by
  rw [list_of_recorded h]
  cases (Listing.write c (Scan.ofText text).tokens out).2 with
  | none => simp
  | some failure => simp

omit h in
theorem rendering_eq (c : Config) (text : List Char) :
    rendering c text = Utf8.encode (Listing.text c (Scan.ofText text).tokens) := by
  rw [rendering, list_out (recordAll_diagnostics _), Listing.write_of_unlimited rfl,
    Sink.accepted_take]
  rfl

/-- Listing takes the front of the rendering that fits. -/
theorem accepted_list (c : Config) (out : Sink) :
    (list c text out log).out.accepted = out.accepted ++ out.fitting (rendering c text) := by
  rw [list_out h, (Listing.write_eq _ _ _).1, Sink.write_fst, Sink.accepted_take, rendering_eq]

/-- It fails if and only if the rendering does not fit. -/
theorem exists_error_list_iff :
    (∃ f, (list c text out log).outcome = .error f) ↔ out.TooSmallFor (rendering c text) := by
  rw [rendering_eq, ← Sink.isSome_write_iff Listing.newline_mem_text, ← (Listing.write_eq _ _ _).2,
    Option.isSome_iff_exists]
  simp only [list_outcome_eq_error_iff h]

end

/-- What is reported ends a line. -/
theorem newline_mem_reports (ds : List Diagnostic)
    (h : (ds.flatMap fun d => d.text.toList ++ ['\n']) ≠ []) :
    '\n' ∈ ds.flatMap fun d => d.text.toList ++ ['\n'] := by
  cases ds with
  | nil => exact absurd rfl h
  | cons d ds => simp

theorem out_ofText (c : Config) (text : List Char) (out err : Sink) :
    (ofText c text out err).out = (list c text out {}).out := by
  unfold ofText
  dsimp only
  split
  · rfl
  · split <;> rfl

/-- Nothing is reported of a text whose tokens cannot be written. -/
theorem ofText_of_error {f : Failure} (h : (list c text out {}).outcome = .error f) :
    ofText c text out err = ⟨(list c text out {}).out, err, .error f⟩ := by
  rw [ofText, h]

/-- If they can be written, the front of the reports that fits follows. -/
theorem ofText_of_ok {s : Scan} (h : (list c text out {}).outcome = .ok s) :
    (ofText c text out err).err.accepted = err.accepted ++ err.fitting (reporting text) ∧
      ((∃ f, (ofText c text out err).outcome = .error f) ↔
        err.TooSmallFor (reporting text)) := by
  have hlog : (list c text out {}).log = { entries := (Scan.ofText text).diagnostics } :=
    list_log (recordAll_diagnostics _) c out
  have hreport := Sink.write_fst err
    ((Scan.ofText text).diagnostics.flatMap fun d => d.text.toList ++ ['\n'])
  have hfails := Sink.isSome_write_iff (s := err)
    (newline_mem_reports (Scan.ofText text).diagnostics)
  simp only [ofText, h, hlog, Log.report_eq]
  rw [reporting, ← hfails, ← Sink.accepted_take, ← hreport]
  rcases err.write _ with ⟨err, _ | cause⟩
  · simp
  · simp

/-- Only a strict log refuses what is wrong with a text. -/
theorem refuses_eq_false {s : Scan} (h : log.strict = false ∨ s.hasErrors = false) :
    ∀ d ∈ s.diagnostics, log.refuses d = false := by
  intro d hd
  rcases h with hlog | hnone
  · rw [Log.refuses, hlog, Bool.false_and]
  · have herrors : s.errors = [] := by simpa [Scan.hasErrors] using hnone
    rw [Scan.diagnostics, herrors] at hd
    cases hd

/-- A strict log does, whatever is wrong. -/
theorem exists_refused {s : Scan} (hstrict : log.strict = true) (herrors : s.hasErrors = true) :
    ∃ d, (log.recordAll s.diagnostics).2 = some d := by
  have hne : s.errors ≠ [] := by simpa [Scan.hasErrors] using herrors
  obtain ⟨e, he⟩ := List.exists_mem_of_ne_nil _ hne
  have hrefuses : log.refuses e.diagnostic = true := by
    rw [Log.refuses, hstrict, LexError.level_diagnostic]
    rfl
  exact Option.isSome_iff_exists.1 (List.find?_isSome.2 ⟨_, List.mem_map_of_mem he, hrefuses⟩)

/-- So nothing is written of a text with errors. -/
theorem list_of_strict (hstrict : log.strict = true)
    (herrors : (Scan.ofText text).hasErrors = true) (c : Config) (out : Sink) :
    (list c text out log).refused.isSome = true ∧ (list c text out log).out = out := by
  obtain ⟨d, hd⟩ := exists_refused hstrict herrors
  rw [list_of_refused (Prod.ext rfl hd)]
  exact ⟨rfl, rfl⟩

/-- A sink with little room gets the front of the rendering that fits, and listing fails just if not
all of it fits. Either way the errors of the text are recorded behind what was on record, unless
the log is strict and refuses them. Where the tokens are reported on too, for a text alone or that
of a file, nothing is reported if they do not fit; otherwise the same holds of the reports. -/
theorem list_report_limited {files : String → Entry} {path : String}
    (hlog : log.strict = false ∨ (Scan.ofText text).hasErrors = false)
    (hfile : (files path).contents = .ok text) :
    (list c text out log).out.accepted = out.accepted ++ out.fitting (rendering c text) ∧
      ((∃ f, (list c text out log).outcome = .error f) ↔ out.TooSmallFor (rendering c text)) ∧
      (list c text out log).log =
        { log with entries := log.entries ++ (Scan.ofText text).diagnostics } ∧
      ∀ r ∈ [ofText c text out err, ofFile c files path out err],
        r.out.accepted = out.accepted ++ out.fitting (rendering c text) ∧
        (out.TooSmallFor (rendering c text) → r.err = err ∧ ∃ f, r.outcome = .error f) ∧
        (¬ out.TooSmallFor (rendering c text) →
          r.err.accepted = err.accepted ++ err.fitting (reporting text) ∧
          ((∃ f, r.outcome = .error f) ↔ err.TooSmallFor (reporting text))) := by
  have hrecorded := Log.recordAll_of_not_refused (refuses_eq_false hlog)
  refine ⟨accepted_list hrecorded c out, exists_error_list_iff hrecorded,
    list_log hrecorded c out, ?_⟩
  intro r hr
  have hfresh := recordAll_diagnostics (Scan.ofText text)
  have hr : r = ofText c text out err := by simpa [ofFile_of_contents hfile] using hr
  rw [hr, out_ofText]
  refine ⟨accepted_list hfresh c out, fun hsmall => ?_, fun hfits => ?_⟩
  · obtain ⟨f, hf⟩ := (exists_error_list_iff hfresh).2 hsmall
    rw [ofText_of_error hf]
    exact ⟨rfl, f, rfl⟩
  · cases houtcome : (list c text out {}).outcome with
    | error f => exact absurd ((exists_error_list_iff hfresh).1 ⟨f, houtcome⟩) hfits
    | ok scan => exact ofText_of_ok houtcome

/-- Twelve bytes are just enough for two entries, and nine for the heading of a report. -/
theorem list_report_limited_heading :
    (({} : Log).strict = false ∨ (Scan.ofText ['@', '+']).hasErrors = false) ∧
      (Entry.file (Utf8.encode ['@', '+'])).contents = .ok ['@', '+'] ∧
      ∀ r ∈ [ofText {} ['@', '+'] { capacity := .bytes 12 } { capacity := .bytes 9 },
          ofFile {} (fun _ => .file (Utf8.encode ['@', '+'])) "plus.lox" { capacity := .bytes 12 }
            { capacity := .bytes 9 }],
        r.out.accepted = Utf8.encode "PLUS +\nEOF \n".toList ∧
          r.err.accepted = Utf8.encode "[line 1] ".toList ∧ ∃ f, r.outcome = .error f := by
  have hlog : ({} : Log).strict = false ∨ (Scan.ofText ['@', '+']).hasErrors = false := Or.inl rfl
  have hfile := Entry.contents_encode ['@', '+']
  refine ⟨hlog, hfile, fun r hr => ?_⟩
  obtain ⟨-, -, -, hreport⟩ := @list_report_limited {} ['@', '+'] { capacity := .bytes 12 }
    { capacity := .bytes 9 } {} (fun _ => .file (Utf8.encode ['@', '+'])) "plus.lox" hlog hfile
  obtain ⟨hout, -, hfits⟩ := hreport r hr
  obtain ⟨herr, hfails⟩ := hfits (by decide +kernel)
  exact ⟨hout.trans (by decide +kernel), herr.trans (by decide +kernel),
    hfails.2 (by decide +kernel)⟩

/-- A listing that a sink for a number of bytes has no room for fails with exit code 74, unless a
JSON array is cut: only if nothing but the newline behind the array is missing, writing it fails. -/
theorem exitCode_of_no_room {earlier : List Diagnostic} {n : Nat}
    (hcapacity : out.capacity = .bytes n)
    (hroom : n - out.taken.length < (rendering c text).length) :
    ∃ f, (list c text out { entries := earlier }).outcome = .error f ∧
      f.exitCode =
        if c.format = .json ∧ n - out.taken.length + 1 < (rendering c text).length then 70
        else 74 := by
  have hroom? := Sink.room?_of_bytes hcapacity
  have hrecorded := @Log.recordAll_of_not_strict { entries := earlier } rfl
    (Scan.ofText text).diagnostics
  obtain ⟨f, hf⟩ := (exists_error_list_iff hrecorded).2
    ((Sink.tooSmallFor_iff_of_room? hroom? _).2 hroom)
  refine ⟨f, hf, ?_⟩
  rw [Listing.exitCode_of_write ((list_outcome_eq_error_iff hrecorded).1 hf)]
  by_cases hformat : c.format = .json
  · have hnewline : (Utf8.encode ['\n']).length = 1 := rfl
    have hcut : (out.write (Listing.array (Listing.shown c (Scan.ofText text).tokens))).2.isSome ↔
        n - out.taken.length + 1 < (rendering c text).length := by
      simp only [Sink.write_of_bytes hcapacity, rendering_eq, Listing.text, hformat,
        Utf8.encode_append, List.length_append, hnewline, Nat.add_lt_add_iff_right]
      split <;> simp_all
    simp only [hcut]
  · simp only [hformat, false_and]

/-- Of an empty array the bracket that closes it is cut, or the newline behind it. -/
theorem exitCode_of_no_room_empty :
    1 < (rendering { format := .json, showEof := false } []).length ∧
      (∃ f, (list { format := .json, showEof := false } [] { capacity := .bytes 1 } {}).outcome =
          .error f ∧ f.exitCode = 70) ∧
      ∃ f, (list { format := .json, showEof := false } [] { capacity := .bytes 2 } {}).outcome =
        .error f ∧ f.exitCode = 74 := by
  have hlength : (rendering { format := .json, showEof := false } []).length = 3 := by
    decide +kernel
  have hbracket := @exitCode_of_no_room { format := .json, showEof := false } []
    { capacity := .bytes 1 } [] 1 rfl (by rw [hlength]; decide)
  have hnewline := @exitCode_of_no_room { format := .json, showEof := false } []
    { capacity := .bytes 2 } [] 2 rfl (by rw [hlength]; decide)
  rw [hlength] at hbracket hnewline
  exact ⟨by rw [hlength]; decide, hbracket, hnewline⟩

/-- Writing that fails does not always end with the exit code for it. -/
theorem exitCode_of_cut_array :
    10 < (rendering { format := .json } ['+']).length ∧
      ¬ ∃ f, (list { format := .json } ['+'] { capacity := .bytes 10 } {}).outcome = .error f ∧
        f.exitCode = 74 := by
  refine ⟨by decide +kernel, ?_⟩
  rintro ⟨f, hf, hcode⟩
  have hcut : (Listing.write { format := .json } (Scan.ofText ['+']).tokens
      { capacity := .bytes 10 }).2 = some (.encoding .sinkFull) := by decide +kernel
  rw [list_outcome_eq_error_iff (recordAll_diagnostics _), hcut] at hf
  cases hf
  cases hcode

end Inspection

end LoxTokens
