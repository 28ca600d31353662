import LoxTokens.Toml.Quoted
import LoxTokens.Toml.Value

/-!
# Dates and times

A moment is a date, a time of day, or a date followed by a time of day, which may then have a
distance from universal time. A day must exist in its month, and a minute may have a sixty-first
second.
-/

namespace LoxTokens.Toml

open Reader

/-- A number of a fixed number of digits within bounds. -/
def field (size least greatest : Nat) : Reader Nat := do
  let row ← upTo (one Char.isDigit) size
  check (row.length == size)
  let n := numeralValue 10 row
  check (least ≤ n && n ≤ greatest)
  return n

/-- Every fourth year has an additional day, but of the full centuries only every fourth. -/
def isLeap (year : Nat) : Bool := year % 4 == 0 && (year % 100 != 0 || year % 400 == 0)

/-- The number of days of a month. -/
def daysOf (year month : Nat) : Nat :=
  if month == 2 then if isLeap year then 29 else 28
  else if [4, 6, 9, 11].contains month then 30
  else 31

/-- Year, month and day. -/
def date : Reader Unit := do
  let year ← field 4 0 9999
  discard (char '-')
  let month ← field 2 1 12
  discard (char '-')
  discard (field 2 1 (daysOf year month))

/-- Hour, minute and second, and parts of a second. -/
def timeOfDay : Reader Unit := do
  discard (field 2 0 23)
  discard (char ':')
  discard (field 2 0 59)
  discard (char ':')
  discard (field 2 0 60)
  discard (maybe (char '.' *> one Char.isDigit *> run Char.isDigit))

/-- The distance from universal time. -/
def offset : Reader Unit :=
  discard (one fun c => c == 'Z' || c == 'z') <|> do
    discard (one fun c => c == '+' || c == '-')
    discard (field 2 0 23)
    discard (char ':')
    discard (field 2 0 59)

/-- A date, and the time of day that may follow it. -/
def dateAndTime : Reader Unit := do
  date
  discard (maybe (do
    discard (one fun c => c == 'T' || c == 't' || c == ' ')
    timeOfDay
    discard (maybe offset)))

/-- A date, a time of day, or both. -/
def moment : Reader Value := do
  return .moment (String.ofList (← taken (dateAndTime <|> timeOfDay)))

end LoxTokens.Toml
