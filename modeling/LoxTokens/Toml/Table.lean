import LoxTokens.Toml.Value

/-!
# Building tables

A name is given to a value once. A key with dots names tables on its way, and only such tables can
be extended by another key with dots: the way may pass a table implied by a header or the latest of
the tables that share one, but not end there. A header passes every table on its way except those
between braces, and ends in a table that has no header yet or, if tables share it, in one more of
them.
-/

namespace LoxTokens.Toml

/-- Change what a name stands for, nothing at first. -/
def alter (name : String) (change : Option Value → Option Value) : Entries → Option Entries
  | [] => (change none).map fun v => [(name, v)]
  | (n, v) :: rest =>
    if n = name then (change (some v)).map fun v => (n, v) :: rest
    else (alter name change rest).map ((n, v) :: ·)

/-- Give a name to a value, behind the names of the tables on the way to it. -/
def assign : List String → String → Value → Entries → Option Entries
  | [], name, value => alter name fun
    | none => some value
    | some _ => none
  | table :: path, name, value => alter table fun
    | none => (assign path name value []).map (.table .dotted)
    | some (.table .dotted entries) => (assign path name value entries).map (.table .dotted)
    | some (.table .implied entries) =>
      if path.isEmpty then none else (assign path name value entries).map (.table .implied)
    | some (.tables (latest :: older)) =>
      if path.isEmpty then none
      else (assign path name value latest).map fun entries => .tables (entries :: older)
    | some _ => none

/-- Change the table at the end of the way of a header. -/
def within : List String → (Entries → Option Entries) → Entries → Option Entries
  | [], change => change
  | table :: path, change => alter table fun
    | none => (within path change []).map (.table .implied)
    | some (.table .inline _) => none
    | some (.table origin entries) => (within path change entries).map (.table origin)
    | some (.tables (latest :: older)) =>
      (within path change latest).map fun entries => .tables (entries :: older)
    | some _ => none

/-- Open the table of a header and fill it. -/
def openTable (name : String) (fill : Entries → Option Entries) : Entries → Option Entries :=
  alter name fun
    | none => (fill []).map (.table .header)
    | some (.table .implied entries) => (fill entries).map (.table .header)
    | some _ => none

/-- Add one more table to those that share a header and fill it. -/
def openElement (name : String) (fill : Entries → Option Entries) : Entries → Option Entries :=
  alter name fun
    | none => (fill []).map fun entries => .tables [entries]
    | some (.tables elements) => (fill []).map fun entries => .tables (entries :: elements)
    | some _ => none

end LoxTokens.Toml
