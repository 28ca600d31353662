import Mathlib.Data.List.DropRight
import LoxTokens.Diagnostic.Log
import LoxTokens.Scan

/-!
# Histories of a log

Diagnostics get into a log in three ways: as they are, built of details, or as the errors of a scan.
A strict log may refuse some of them, and a log may be cleared. Whatever was refused in between, it
holds just what has been emitted since it was last cleared, and what is refused changes nothing.
-/

namespace LoxTokens

namespace Diagnostic

/-- What is said about a diagnostic while it is built. -/
inductive Detail where
  /-- The kind of message. -/
  | code (code : Code)
  /-- Its place. -/
  | span (span : Span)
  /-- A line as its place. -/
  | line (line : Nat)
  /-- What else there is to know. -/
  | note (note : String)
  /-- A way to mend the text. -/
  | help (help : String)

/-- Say one more thing about a diagnostic. -/
def add (d : Diagnostic) : Detail → Diagnostic
  | .code code => d.withCode code
  | .span span => d.withSpan span
  | .line line => d.onLine line
  | .note note => d.withNote note
  | .help help => d.withHelp help

/-- The diagnostic that is built of a message and of details that follow one another. -/
def built (level : Level) (message : String) (details : List Detail) : Diagnostic :=
  details.foldl add { level, message }

end Diagnostic

namespace Log

/-- What can be done with a log. -/
inductive Use where
  /-- Emit a diagnostic. -/
  | emit (d : Diagnostic)
  /-- Build a diagnostic and emit it. -/
  | build (level : Level) (message : String) (details : List Diagnostic.Detail)
  /-- Emit what is reported about a text. -/
  | scan (s : Scan)
  /-- Forget what was recorded. -/
  | clear

namespace Use

/-- The log is cleared. -/
def isClear : Use → Bool
  | clear => true
  | _ => false

/-- The diagnostics to be emitted, in order. -/
def emissions : Use → List Diagnostic
  | emit d => [d]
  | build level message details => [Diagnostic.built level message details]
  | scan s => s.diagnostics
  | clear => []

end Use

/-- Do one thing with a log. A diagnostic that is refused is handed back. -/
def use (log : Log) : Use → Log × Option Diagnostic
  | .emit d => log.record d
  | .build level message details => log.record (Diagnostic.built level message details)
  | .scan s => log.recordAll s.diagnostics
  | .clear => (log.clear, none)

/-- What is done with a log, each with the diagnostic that was refused, and the log behind it. -/
def history (log : Log) : List Use → List (Use × Option Diagnostic) × Log
  | [] => ([], log)
  | u :: us =>
    let (next, refused) := log.use u
    let (events, last) := next.history us
    ((u, refused) :: events, last)

/-- The diagnostics that were emitted before one was refused, or all of them. -/
def emitted : Use × Option Diagnostic → List Diagnostic
  | (u, none) => u.emissions
  | (u, some refused) => u.emissions.takeWhile (· != refused)

/-- What has been emitted since the log was last cleared. -/
def emittedSince (events : List (Use × Option Diagnostic)) : List Diagnostic :=
  (events.rtakeWhile fun e => !e.1.isClear).flatMap emitted

/-- What a history has left behind, whatever is done next. -/
structure Accounts (strict : Bool) (events : List (Use × Option Diagnostic)) (log : Log) :
    Prop where
  /-- The log is as strict as it was. -/
  strict_eq : log.strict = strict
  /-- It holds what has been emitted since it was last cleared. -/
  entries_eq : log.entries = emittedSince events
  /-- It counts the errors it holds. -/
  errorCount_eq : log.errorCount = (log.entries.map (·.level)).count .error
  /-- It counts the warnings it holds. -/
  warningCount_eq : log.warningCount = (log.entries.map (·.level)).count .warning
  /-- It has errors if there are any. -/
  hasErrors_iff : log.hasErrors = true ↔ 0 < log.errorCount
  /-- A strict log holds no error. -/
  level_ne_error : strict = true → ∀ d ∈ log.entries, d.level ≠ .error
  /-- It refuses the first error that is emitted, and another log refuses nothing. -/
  refused_iff : ∀ u d, (log.use u).2 = some d ↔
    strict = true ∧ u.emissions.find? (·.level.isError) = some d
  /-- Where something is refused, nothing changes. -/
  use_of_refused : ∀ u d, (log.use u).2 = some d → (log.use u).1 = log
  /-- A strict log refuses the first error of a text, and nothing of the text gets into it. -/
  scan_of_error : strict = true → ∀ s e es, s.errors = e :: es →
    log.use (.scan s) = (log, some e.diagnostic)

/-- The invariant of a history: what the log holds, and that it is fit for a strict log. -/
structure Keeps (strict : Bool) (events : List (Use × Option Diagnostic)) (log : Log) : Prop where
  /-- The log is as strict as it was. -/
  strict_eq : log.strict = strict
  /-- It holds what has been emitted since it was last cleared. -/
  entries_eq : log.entries = emittedSince events
  /-- It would not refuse anything of what it holds. -/
  refuses_eq : ∀ d ∈ log.entries, log.refuses d = false

variable {strict : Bool} {log : Log} {u : Use} {d : Diagnostic} {ds : List Diagnostic}
  {events : List (Use × Option Diagnostic)} {e : Use × Option Diagnostic}

/-- What is to be emitted in one go is all of one level. -/
theorem exists_level_emissions (u : Use) : ∃ level, ∀ d ∈ u.emissions, d.level = level := by
  cases u with
  | emit d => exact ⟨d.level, by simp [Use.emissions]⟩
  | build level message details => exact ⟨_, fun d hd => congrArg _ (List.mem_singleton.1 hd)⟩
  | scan s =>
    refine ⟨.error, fun d hd => ?_⟩
    obtain ⟨e, -, rfl⟩ := List.mem_map.1 hd
    exact e.level_diagnostic
  | clear => exact ⟨.error, nofun⟩

/-- Whatever is emitted is recorded in order, up to the first diagnostic that is refused. -/
theorem use_eq_recordAll (h : u.isClear = false) : log.use u = log.recordAll u.emissions := by
  cases u with
  | emit | build | scan => rfl
  | clear => cases h

/-- The cases of a use: the log is cleared, or keeps everything, or refuses the first diagnostic. -/
theorem use_cases (log : Log) (u : Use) :
    (u.isClear = true ∧ log.use u = (log.clear, none)) ∨
    (u.isClear = false ∧ (∀ d ∈ u.emissions, log.refuses d = false) ∧
      log.use u = ({ log with entries := log.entries ++ u.emissions }, none)) ∨
    ∃ d ds, u.isClear = false ∧ u.emissions = d :: ds ∧ log.refuses d = true ∧
      log.use u = (log, some d) := by
  cases hc : u.isClear with
  | true =>
    cases u with
    | clear => exact Or.inl ⟨rfl, rfl⟩
    | emit | build | scan => cases hc
  | false =>
    refine Or.inr ?_
    obtain ⟨level, hlevel⟩ := exists_level_emissions u
    rw [use_eq_recordAll hc]
    -- All of it has one level, so that one diagnostic is refused if and only if all are.
    by_cases hr : (log.strict && level.isError) = true
    · cases hu : u.emissions with
      | nil => exact Or.inl ⟨rfl, nofun, recordAll_of_not_refused nofun⟩
      | cons d ds =>
        have hd : log.refuses d = true := by
          rw [refuses, hlevel d (hu ▸ List.mem_cons_self)]
          exact hr
        refine Or.inr ⟨d, ds, rfl, rfl, hd, ?_⟩
        rw [recordAll_cons, record_of_refuses hd]
    · have hno : ∀ d ∈ u.emissions, log.refuses d = false := by
        intro d hd
        rw [refuses, hlevel d hd]
        exact Bool.eq_false_iff.2 hr
      exact Or.inl ⟨rfl, hno, recordAll_of_not_refused hno⟩

/-- A log that is cleared starts from nothing, and another one goes on from what it holds. -/
theorem emittedSince_concat (events : List (Use × Option Diagnostic))
    (e : Use × Option Diagnostic) :
    emittedSince (events ++ [e]) =
      if e.1.isClear then [] else emittedSince events ++ emitted e := by
  cases he : e.1.isClear with
  | true =>
    rw [emittedSince, List.rtakeWhile_concat_neg _ _ _ (by simp [he])]
    rfl
  | false =>
    rw [emittedSince, List.rtakeWhile_concat_pos _ _ _ (by simp [he]), List.flatMap_append]
    simp [emittedSince]

/-- A new log holds nothing. -/
theorem keeps_new (strict : Bool) : Keeps strict [] { strict } where
  strict_eq := rfl
  entries_eq := rfl
  refuses_eq := nofun

/-- Every use keeps the invariant. -/
theorem Keeps.use (h : Keeps strict events log) (u : Use) :
    Keeps strict (events ++ [(u, (log.use u).2)]) (log.use u).1 := by
  rcases use_cases log u with ⟨hc, hu⟩ | ⟨hc, hno, hu⟩ | ⟨d, ds, hc, hd, -, hu⟩
  · rw [hu]
    refine ⟨h.strict_eq, ?_, nofun⟩
    rw [emittedSince_concat, if_pos hc]
    rfl
  · rw [hu]
    refine ⟨h.strict_eq, ?_, fun d hd => ?_⟩
    · rw [emittedSince_concat, hc, ← h.entries_eq]
      rfl
    · rcases List.mem_append.1 hd with hd | hd
      · exact h.refuses_eq d hd
      · exact hno d hd
  · rw [hu]
    refine ⟨h.strict_eq, ?_, h.refuses_eq⟩
    have hnone : emitted (u, some d) = [] := by simp [emitted, hd]
    rw [emittedSince_concat, hc, hnone, ← h.entries_eq]
    simp

/-- So does a history. -/
theorem Keeps.history (h : Keeps strict events log) (uses : List Use) :
    Keeps strict (events ++ (log.history uses).1) (log.history uses).2 := by
  induction uses generalizing events log with
  | nil => rwa [Log.history, List.append_nil]
  | cons u us ih =>
    have hus := ih (h.use u)
    rwa [List.append_assoc] at hus

/-- A history tells of every use in order. -/
theorem map_fst_history (log : Log) (uses : List Use) :
    (log.history uses).1.map Prod.fst = uses := by
  induction uses generalizing log with
  | nil => rfl
  | cons u us ih => exact congrArg (u :: ·) (ih _)

/-- The first error is refused, by a strict log only. -/
theorem refused_iff_find? :
    (log.use u).2 = some d ↔
      log.strict = true ∧ u.emissions.find? (·.level.isError) = some d := by
  have hfind : (log.use u).2 = u.emissions.find? log.refuses := by
    cases u with
    | emit | build | scan | clear => rfl
  rw [hfind]
  cases hs : log.strict with
  | true =>
    have hr : log.refuses = fun d => d.level.isError := funext fun d => by simp [refuses, hs]
    simp [hr]
  | false =>
    have hnone : u.emissions.find? log.refuses = none :=
      List.find?_eq_none.2 fun d _ => by simp [refuses, hs]
    simp [hnone]

/-- What is refused leaves the log as it is. -/
theorem use_of_refused (h : (log.use u).2 = some d) : (log.use u).1 = log := by
  rcases use_cases log u with ⟨-, hu⟩ | ⟨-, -, hu⟩ | ⟨d, ds, -, -, -, hu⟩
  · rw [hu] at h
    cases h
  · rw [hu] at h
    cases h
  · rw [hu]

theorem errorCount_eq_count (log : Log) :
    log.errorCount = (log.entries.map (·.level)).count .error := by
  rw [List.count, List.countP_map]
  rfl

theorem warningCount_eq_count (log : Log) :
    log.warningCount = (log.entries.map (·.level)).count .warning := by
  rw [List.count, List.countP_map]
  rfl

theorem hasErrors_iff_errorCount_pos (log : Log) : log.hasErrors = true ↔ 0 < log.errorCount := by
  rw [hasErrors, errorCount, List.any_eq_true, List.countP_pos_iff]

/-- Emitting the errors of a text fails at the first one in a strict log. -/
theorem use_scan_of_error {s : Scan} {e : LexError} {es : List LexError}
    (hs : log.strict = true) (he : s.errors = e :: es) :
    log.use (.scan s) = (log, some e.diagnostic) := by
  have hr : log.refuses e.diagnostic = true := by simp [refuses, hs, Level.isError]
  rw [Log.use, Scan.diagnostics, he, List.map_cons, recordAll_cons, record_of_refuses hr]

/-- A log that keeps the invariant accounts for its history. -/
theorem Keeps.accounts (h : Keeps strict events log) : log.Accounts strict events where
  strict_eq := h.strict_eq
  entries_eq := h.entries_eq
  errorCount_eq := log.errorCount_eq_count
  warningCount_eq := log.warningCount_eq_count
  hasErrors_iff := log.hasErrors_iff_errorCount_pos
  level_ne_error := by
    intro hs d hd hl
    have hno := h.refuses_eq d hd
    rw [refuses, h.strict_eq, hs, hl] at hno
    cases hno
  refused_iff := fun u d => h.strict_eq ▸ refused_iff_find?
  use_of_refused := fun u d => use_of_refused
  scan_of_error := fun hs s e es he => use_scan_of_error (h.strict_eq.trans hs) he

/-- Whatever is done with a log, strict or not, it holds what has been emitted since it was last
cleared, counts that by level, and is left as it is by all that it refuses. -/
theorem history_accounts (strict : Bool) (uses : List Use) :
    let log : Log := { strict }
    (log.history uses).1.map Prod.fst = uses ∧
      Accounts strict (log.history uses).1 (log.history uses).2 :=
  ⟨map_fst_history _ uses, ((keeps_new strict).history uses).accounts⟩

end Log

end LoxTokens
