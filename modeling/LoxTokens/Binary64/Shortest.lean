import LoxTokens.Binary64.Basic

/-!
# Shortest decimals

Among the decimals that read back as a given number, those with the fewest digits are found by
trying ever finer decimal grids: if any point of a grid reads back, so does one of the two points
next to the number. Everything is compared in whole numbers, in quarters of the unit `2 ^ -1074`
and after scaling by a power of ten.
-/

namespace LoxTokens.Binary64

/-- Which of two equally near decimals is taken. -/
inductive Tie where
  /-- The larger one. -/
  | up
  /-- The one whose last digit is even. -/
  | even
  deriving DecidableEq, Repr

/-- A positive decimal: its digits from the first to the last that is not zero, and the power of
ten of the first. -/
structure Scientific where
  /-- The digits. -/
  digits : List Char
  /-- The power of ten of the first digit. -/
  exponent : Int
  deriving DecidableEq, Repr

namespace Shortest

/-- The number itself, in quarter units. -/
def center (x : Binary64) : Nat := (4 * x.significand) <<< x.scale

/-- The lower end of the decimals that read back. The gap below a power of two is half as wide. -/
def lower (x : Binary64) : Nat :=
  (4 * x.significand - if x.significand = leadingOne then 1 else 2) <<< x.scale

/-- The upper end of the decimals that read back. -/
def upper (x : Binary64) : Nat := (4 * x.significand + 2) <<< x.scale

/-- A point of the grid of a power of ten, in quarter units, scaled. -/
def point (power : Int) (coefficient : Nat) : Nat :=
  (coefficient * Nat.pow 10 power.toNat) <<< 1076

/-- A number of quarter units, scaled like the points of the grid. -/
def scaled (power : Int) (quarters : Nat) : Nat := quarters * Nat.pow 10 (-power).toNat

/-- A point of a grid reads back: the ends themselves do so just if the significand is even. -/
def readsBack (x : Binary64) (power : Int) (coefficient : Nat) : Bool :=
  let p := point power coefficient
  let low := scaled power (lower x)
  let high := scaled power (upper x)
  if x.significand % 2 = 0 then low ≤ p && p ≤ high else low < p && p < high

/-- The last point of a grid that is not above the number. -/
def below (x : Binary64) (power : Int) : Nat := scaled power (center x) / point power 1

/-- The nearest point of a grid that reads back, if there is one. -/
def onGrid? (tie : Tie) (x : Binary64) (power : Int) : Option Nat :=
  let d := below x power
  match readsBack x power d, readsBack x power (d + 1) with
  | false, false => none
  | true, false => some d
  | false, true => some (d + 1)
  | true, true =>
    let twice := 2 * scaled power (center x)
    let middle := point power (2 * d + 1)
    if twice < middle then some d
    else if middle < twice then some (d + 1)
    else match tie with
      | .up => some (d + 1)
      | .even => some (d + d % 2)

/-- Try a number of grids, each ten times finer than the one before. -/
def search (tie : Tie) (x : Binary64) : Nat → Int → Nat × Int
  | 0, power => (below x power, power)
  | n + 1, power =>
    match onGrid? tie x power with
    | some d => (d, power)
    | none => search tie x n (power - 1)

/-- The power of ten of the first digit of the number itself. -/
def leadingPower (x : Binary64) : Int :=
  (Nat.toDigits 10 ((center x * Nat.pow 10 400) >>> 1076)).length - 401

end Shortest

/-- The shortest decimal that reads back as a positive finite number, the nearest of several.
Seventeen digits always suffice. -/
def shortest (tie : Tie) (x : Binary64) : Scientific :=
  let (d, power) := Shortest.search tie x 17 (Shortest.leadingPower x)
  let digits := Nat.toDigits 10 d
  { digits := (digits.reverse.dropWhile (· == '0')).reverse
    exponent := power + digits.length - 1 }

end LoxTokens.Binary64
