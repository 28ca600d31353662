import LoxTokens.Binary64.Reading
import LoxTokens.Toml.Quoted
import LoxTokens.Toml.Value

/-!
# Numbers

Digits may have a single underscore between them. A decimal number has an optional sign and no
leading zero; with a fraction or an exponent it is a double precision number, which must not
overflow upwards. Without either it is a whole number and must fit into sixty-four bits, like the
unsigned numbers to the bases sixteen, eight and two.
-/

namespace LoxTokens.Toml

open Reader

/-- Digits, with single underscores between them. -/
def digits (p : Char → Bool) : Reader (List Char) := do
  return (← one p) :: (← many (one p <|> (char '_' *> one p)))

/-- Whole numbers have sixty-four bits, one of them for the sign. -/
def inRange (n : Int) : Bool := -0x8000000000000000 ≤ n && n < 0x8000000000000000

/-- A number to a base other than ten. -/
def based (mark : String) (base : Nat) : Reader Value := do
  word mark
  let n := numeralValue base (← digits fun c => isHexDigit c && digitValue c < base)
  check (inRange n)
  return .integer n

/-- The digits before a point: no zero stands before another digit. -/
def wholeDigits : Reader (List Char) :=
  (do
    let first ← one fun c => c.isDigit && c != '0'
    return first :: (← many (one Char.isDigit <|> (char '_' *> one Char.isDigit)))) <|>
  List.singleton <$> char '0'

/-- A sign: negative or not. -/
def sign : Reader Bool := (char '-' *> pure true) <|> (char '+' *> pure false) <|> pure false

/-- A point and the digits behind it. -/
def fraction : Reader (List Char) := char '.' *> digits Char.isDigit

/-- A power of ten. -/
def exponent : Reader Int := do
  discard (one fun c => c == 'e' || c == 'E')
  let negative ← sign
  let n := numeralValue 10 (← digits Char.isDigit)
  return if negative then -n else n

/-- A double precision number with a sign. -/
def signed (negative : Bool) (x : Binary64) : Value := .float (if negative then x.negate else x)

/-- A decimal number. -/
def decimal : Reader Value := do
  let negative ← sign
  let whole ← wholeDigits
  let part ← maybe fraction
  let power ← maybe exponent
  if part.isNone ∧ power.isNone then
    let n : Int := if negative then -numeralValue 10 whole else numeralValue 10 whole
    check (inRange n)
    return .integer n
  else
    let part := part.getD []
    let x := Binary64.ofScientific (whole ++ part) (power.getD 0 - part.length)
    check (negative || !x.isInfinite)
    return signed negative x

/-- An infinity, or what is no number. -/
def special : Reader Value := do
  let negative ← sign
  (word "inf" *> pure (signed negative Binary64.infinity)) <|>
    (word "nan" *> pure (signed negative Binary64.nan))

/-- A number of any form. -/
def number : Reader Value :=
  based "0x" 16 <|> based "0o" 8 <|> based "0b" 2 <|> decimal <|> special

end LoxTokens.Toml
