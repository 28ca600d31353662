import LoxTokens.Diagnostic.Basic

/-!
# Logs of diagnostics

A log keeps the diagnostics recorded in it in order. A strict log refuses errors: what it refuses
is not kept, and everything kept before stays.
-/

namespace LoxTokens

/-- The diagnostics recorded so far. -/
structure Log where
  /-- Errors are refused. -/
  strict : Bool := false
  /-- What was recorded, the oldest first. -/
  entries : List Diagnostic := []
  deriving DecidableEq, Repr

namespace Log

/-- Only a strict log refuses anything, and only errors. -/
def refuses (log : Log) (d : Diagnostic) : Bool := log.strict && d.level.isError

/-- Record diagnostics in order, up to the first that is refused, which is handed back. -/
def recordAll (log : Log) (ds : List Diagnostic) : Log × Option Diagnostic :=
  ({ log with entries := log.entries ++ ds.takeWhile (!log.refuses ·) }, ds.find? log.refuses)

/-- Record a diagnostic, or hand it back. -/
def record (log : Log) (d : Diagnostic) : Log × Option Diagnostic := log.recordAll [d]

/-- The complaint about a diagnostic that is refused. -/
def complaint (d : Diagnostic) : String := "Diagnostic error: " ++ d.text

/-- The number of errors. -/
def errorCount (log : Log) : Nat := log.entries.countP (·.level.isError)

/-- The number of warnings. -/
def warningCount (log : Log) : Nat := log.entries.countP (·.level == .warning)

/-- An error was recorded. -/
def hasErrors (log : Log) : Bool := log.entries.any (·.level.isError)

/-- Forget what was recorded. -/
def clear (log : Log) : Log := { log with entries := [] }

/-- A diagnostic that is refused leaves the log as it is. -/
theorem record_of_refuses {log : Log} {d : Diagnostic} (h : log.refuses d = true) :
    log.record d = (log, some d) := by
  simp [record, recordAll, h]

theorem record_of_not_refuses {log : Log} {d : Diagnostic} (h : log.refuses d = false) :
    log.record d = ({ log with entries := log.entries ++ [d] }, none) := by
  simp [record, recordAll, h]

/-- Diagnostics are recorded one after the other, and the first that is refused ends it. -/
theorem recordAll_cons (log : Log) (d : Diagnostic) (ds : List Diagnostic) :
    log.recordAll (d :: ds) =
      match log.record d with
      | (next, none) => next.recordAll ds
      | refused => refused := by
  cases h : log.refuses d with
  | true =>
    rw [record_of_refuses h]
    simp [recordAll, h]
  | false =>
    -- What is kept makes no difference for what is refused.
    have hnext : ({ log with entries := log.entries ++ [d] } : Log).refuses = log.refuses := rfl
    rw [record_of_not_refuses h]
    simp [recordAll, h, hnext]

/-- A list of which nothing is refused is recorded as a whole. -/
theorem recordAll_of_not_refused {log : Log} {ds : List Diagnostic}
    (h : ∀ d ∈ ds, log.refuses d = false) :
    log.recordAll ds = ({ log with entries := log.entries ++ ds }, none) := by
  have ht : ds.takeWhile (!log.refuses ·) = ds := by
    induction ds with
    | nil => rfl
    | cons d ds ih =>
      rw [List.takeWhile_cons_of_pos (by simp [h d List.mem_cons_self]),
        ih fun e he => h e (List.mem_cons_of_mem _ he)]
  have hf : ds.find? log.refuses = none := by
    rw [List.find?_eq_none]
    exact fun d hd => by simp [h d hd]
  rw [recordAll, ht, hf]

/-- A log that is not strict keeps everything. -/
theorem recordAll_of_not_strict {log : Log} (h : log.strict = false) (ds : List Diagnostic) :
    log.recordAll ds = ({ log with entries := log.entries ++ ds }, none) :=
  recordAll_of_not_refused fun d _ => by simp [refuses, h]

end Log

end LoxTokens
