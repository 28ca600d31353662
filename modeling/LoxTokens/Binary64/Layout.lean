import LoxTokens.Binary64.Shortest

/-!
# Laying out decimals

A layout fixes how the digits of a number are written: which powers of ten keep the plain form with
a point, how the exponent of the others is marked, and which of two equally near decimals is taken.
-/

namespace LoxTokens.Binary64

/-- The choices of a number format. -/
structure Layout where
  /-- The least power of ten of a first digit that is written with a point. -/
  least : Int
  /-- The greatest power of ten of a first digit that is written with a point. -/
  greatest : Int
  /-- What stands before an exponent that is not negative. -/
  mark : String
  /-- Which of two equally near decimals is written. -/
  tie : Tie
  deriving DecidableEq, Repr

namespace Layout

/-- Digits with a point, and at least one digit on both sides of it. -/
def plain (s : Scientific) : List Char :=
  if s.exponent < 0 then
    '0' :: '.' :: List.replicate (-s.exponent - 1).toNat '0' ++ s.digits
  else
    let whole := s.exponent.toNat + 1
    if s.digits.length ≤ whole then
      s.digits ++ List.replicate (whole - s.digits.length) '0' ++ ['.', '0']
    else s.digits.take whole ++ '.' :: s.digits.drop whole

/-- One digit before the point, no point if there is no digit behind it, and an exponent. -/
def scientific (l : Layout) (s : Scientific) : List Char :=
  let coefficient := match s.digits with
    | first :: next :: more => first :: '.' :: next :: more
    | few => few
  let sign := if s.exponent < 0 then "-" else l.mark
  coefficient ++ 'e' :: (sign ++ toString s.exponent.natAbs).toList

/-- Write a finite number. -/
def write (l : Layout) (x : Binary64) : String :=
  let sign := if x.isNegative then "-" else ""
  let s := shortest l.tie x
  let body :=
    if x.significand = 0 then "0.0".toList
    else if l.least ≤ s.exponent ∧ s.exponent ≤ l.greatest then plain s
    else l.scientific s
  sign ++ String.ofList body

end Layout

end LoxTokens.Binary64
