/-!
# Complaints of an encoder

A complaint may name the place that it is about, at the end of its text. Lines count from one, so a
complaint about line zero is about no place, and none is shown.
-/

namespace LoxTokens.Json

/-- What an encoder complains about. -/
structure Complaint where
  /-- What is wrong. -/
  problem : List Char
  /-- The line where it is wrong, or zero. -/
  line : Nat
  /-- The place in that line. -/
  column : Nat
  deriving DecidableEq, Repr

namespace Complaint

/-- Stands before the line. -/
def lineMark : List Char := " at line ".toList

/-- Stands before the column. -/
def columnMark : List Char := " column ".toList

/-- Lines and columns have sixty-four bits. -/
def limit : Nat := 0x10000000000000000

/-- The number at the end of a text, after the rest of the text. -/
def numberAtEnd? (text : List Char) : Option (List Char × Nat) :=
  let digits := (text.reverse.takeWhile Char.isDigit).reverse
  let number := Nat.ofDigitChars 10 digits 0
  if digits.isEmpty || limit ≤ number then none
  else some ((text.reverse.dropWhile Char.isDigit).reverse, number)

/-- What stands before a mark at the end of a text. -/
def beforeMark? (mark text : List Char) : Option (List Char) :=
  if mark.isSuffixOf text then some (text.take (text.length - mark.length)) else none

/-- The complaint that ends with the place it is about. -/
def ofPlaced? (text : List Char) : Option Complaint := do
  let (front, column) ← numberAtEnd? text
  let (front, line) ← numberAtEnd? (← beforeMark? columnMark front)
  return ⟨← beforeMark? lineMark front, line, column⟩

/-- Read a complaint. -/
def ofText (text : List Char) : Complaint := (ofPlaced? text).getD ⟨text, 0, 0⟩

/-- The text of a complaint. -/
def text (c : Complaint) : List Char :=
  if c.line = 0 then c.problem
  else c.problem ++ lineMark ++ Nat.toDigits 10 c.line ++ columnMark ++ Nat.toDigits 10 c.column

end Complaint

end LoxTokens.Json
