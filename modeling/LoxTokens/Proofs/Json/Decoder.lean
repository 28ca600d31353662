import LoxTokens.Text.Class
import LoxTokens.Toml.Quoted

/-!
# Decoding JSON

What a JSON text denotes is said by a decoder that knows nothing of how the texts were written. It
takes no more than the standard allows: one value with blanks around it, no comma behind the last
item, no zeros in front of a number, no control character and no lone surrogate in a string.
-/

namespace LoxTokens.Json

open Toml (Reader isHexDigit numeralValue)
open Toml.Reader

/-- A decoded value. The members of an object stand in their order, and a number is its text. -/
inductive Value where
  /-- No value. -/
  | null
  /-- True or false. -/
  | bool (b : Bool)
  /-- A number. -/
  | number (text : List Char)
  /-- A string. -/
  | string (s : String)
  /-- An array. -/
  | array (items : List Value)
  /-- An object. -/
  | object (members : List (String × Value))

namespace Value

/-- The whole number that is written without a sign, a point and an exponent. -/
def count? : Value → Option Nat
  | number text => if text.all Char.isDigit then some (numeralValue 10 text) else none
  | _ => none

end Value

namespace Decoder

/-- Blanks and line ends. -/
def space : Reader (List Char) := run Text.isSpace

/-- Four digits to the base sixteen. -/
def unit : Reader Nat := do
  let digits ← upTo (one isHexDigit) 4
  check (digits.length == 4)
  return numeralValue 16 digits

/-- The character of one unit, or of two that are a pair of surrogates. -/
def codePoint : Reader Char := do
  let high ← unit
  if 0xD800 ≤ high ∧ high < 0xDC00 then
    word "\\u"
    let low ← unit
    check (0xDC00 ≤ low && low < 0xE000)
    return Char.ofNat (0x10000 + 0x400 * (high - 0xD800) + (low - 0xDC00))
  else
    check (Nat.isValidChar high)
    return Char.ofNat high

/-- The character behind a backslash. -/
def escape : Reader Char := do
  match ← one fun _ => true with
  | '"' => return '"'
  | '\\' => return '\\'
  | '/' => return '/'
  | 'b' => return '\x08'
  | 'f' => return '\x0c'
  | 'n' => return '\n'
  | 'r' => return '\r'
  | 't' => return '\t'
  | 'u' => codePoint
  | _ => failure

/-- A character stands for itself unless it is a control character, a quote or a backslash. -/
def isUnescaped (c : Char) : Bool := 0x20 ≤ c.toNat && c != '"' && c != '\\'

/-- A character of a string. -/
def character : Reader Char := one isUnescaped <|> (char '\\' *> escape)

/-- A string. -/
def string : Reader String := String.ofList <$> (char '"' *> many character <* char '"')

/-- One digit or more. -/
def digits : Reader (List Char) := do
  let text ← run Char.isDigit
  check !text.isEmpty
  return text

/-- The digits in front of a point. Nothing but a zero starts with a zero. -/
def whole : Reader (List Char) := List.singleton <$> char '0' <|> digits

/-- A point and the digits behind it. -/
def fraction : Reader (List Char) := char '.' *> digits

/-- One of several characters. -/
def oneOf (cs : List Char) : Reader Char := one cs.contains

/-- A power of ten. -/
def exponent : Reader (List Char) := oneOf ['e', 'E'] *> maybe (oneOf ['+', '-']) *> digits

/-- The text of a number. -/
def number : Reader (List Char) :=
  taken (maybe (oneOf ['-']) *> whole *> maybe fraction *> maybe exponent)

/-- A comma between two items. -/
def comma : Reader (List Char) := space *> char ',' *> space

/-- Items between brackets. -/
def list {α : Type} (opening closing : Char) (item : Reader α) : Reader (List α) :=
  (fun items => items.getD []) <$>
    (char opening *> space *> maybe (separated item comma) <* space <* char closing)

/-- A name and a value. -/
def member {α : Type} (value : Reader α) : Reader (String × α) := do
  let name ← string <* space <* char ':' <* space
  return (name, ← value)

/-- A value with at most a number of brackets around its parts. -/
def value : Nat → Reader Value
  | 0 => failure
  | depth + 1 =>
    .number <$> number <|> .string <$> string <|>
      .array <$> list '[' ']' (value depth) <|>
      .object <$> list '\x7b' '\x7d' (member (value depth)) <|>
      word "true" *> pure (.bool true) <|> word "false" *> pure (.bool false) <|>
      word "null" *> pure .null

end Decoder

/-- The value that a text denotes. There cannot be more brackets around a part than there are
characters. -/
def decode? (text : List Char) : Option Value :=
  ((Decoder.space *> Decoder.value (text.length + 1) <* Decoder.space <* atEnd) text).map Prod.fst

example : (decode? "[ -1.5e+2 , \"\\ud83d\\ude00\" ]".toList).isSome := by decide +kernel
example : (decode? "[1,]".toList).isNone := by decide +kernel
example : (decode? "[01]".toList).isNone := by decide +kernel
example : (decode? "[\"\\ude00\"]".toList).isNone := by decide +kernel

end LoxTokens.Json
