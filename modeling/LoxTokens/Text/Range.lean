/-!
# Ranges of characters

A class of characters that follows no rule is a list of ranges of code points, in order.
-/

namespace LoxTokens.Text

/-- First and last code point of a range. -/
abbrev Range := Nat × Nat

/-- The character stands in one of the ranges. -/
def within (ranges : List Range) (c : Char) : Bool :=
  ranges.any fun (first, last) => first ≤ c.toNat && c.toNat ≤ last

end LoxTokens.Text
