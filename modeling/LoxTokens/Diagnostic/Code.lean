/-!
# Diagnostic codes

A code names a kind of message by a family and a number. In the text of a code the number has at
least four digits.
-/

namespace LoxTokens

/-- The code of a kind of message. -/
structure Code where
  /-- The letters before the number. -/
  family : String
  /-- The number within the family. -/
  number : Nat
  deriving DecidableEq, Repr

namespace Code

/-- The digits of a number, with zeros in front of short ones. -/
def padded (number : Nat) : String :=
  let digits := Nat.toDigits 10 number
  String.ofList (List.replicate (4 - digits.length) '0' ++ digits)

/-- The text of a code. -/
def text (c : Code) : String := c.family ++ padded c.number

/-- A character starts no lexeme. -/
def unexpectedCharacter : Code := ⟨"E", 1001⟩

/-- A string is never closed. -/
def unterminatedString : Code := ⟨"E", 1002⟩

end Code

end LoxTokens
