import LoxTokens.Binary64.Layout
import LoxTokens.Json.Record
import LoxTokens.Token.Basic

/-!
# Written tokens

A token is written either as an entry of a plain list, its tag followed by its text and the value
of a literal, or as a record with named members. A member without a value is left out.
-/

namespace LoxTokens

namespace Literal

/-- Numbers from `1e-4` up to below `1e16` have a point, and a positive exponent has no sign. -/
def numbers : Binary64.Layout := ⟨-4, 15, "", .up⟩

/-- The text of a number. -/
def numberText (x : Binary64) : String :=
  if x.isNaN then "NaN"
  else if x.isInfinite then if x.isNegative then "-inf" else "inf"
  else numbers.write x

/-- The text of a value. -/
def shown : Literal → String
  | .text s => s
  | .number x => numberText x

/-- The value as the member of a record. -/
def scalar : Literal → Json.Scalar
  | .text s => .text s
  | .number x => .number x

end Literal

namespace Token

/-- The entry of a token in a plain list. -/
def entry (t : Token) : String :=
  t.kind.name ++ " " ++ t.lexeme ++
    match t.literal with
    | some value => " " ++ value.shown
    | none => ""

/-- The parts in which an entry and the newline behind it are written. -/
def parts (t : Token) : List (List Char) :=
  [t.kind.name.toList, [' '], t.lexeme.toList] ++
    (match t.literal with
    | some value => [[' '], value.shown.toList]
    | none => []) ++ [['\n']]

/-- The record of a token. -/
def record (t : Token) : Json.Record :=
  [("type", .text t.kind.name), ("lexeme", .text t.lexeme)] ++
    (t.literal.map fun value => ("literal", value.scalar)).toList ++ [("line", .count t.line)]

/-- The parts of an entry are all of it in order. -/
theorem flatten_parts (t : Token) : t.parts.flatten = t.entry.toList ++ ['\n'] := by
  cases h : t.literal <;> simp [parts, entry, h]

end Token

end LoxTokens
