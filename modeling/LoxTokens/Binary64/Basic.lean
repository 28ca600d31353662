/-!
# Double precision numbers

A number is its 64-bit pattern. Every finite magnitude is a whole number of the least positive
magnitude, `2 ^ -1074`: it is `significand * 2 ^ scale` of these units.
-/

namespace LoxTokens

/-- A double precision number, told apart from others by its bits. -/
structure Binary64 where
  /-- Sign bit, eleven exponent bits, fifty-two fraction bits. -/
  bits : UInt64
  deriving DecidableEq, Repr

namespace Binary64

/-- The leading one of a significand, the first bit above the fraction. -/
def leadingOne : Nat := 0x10000000000000

/-- The sign bit. -/
def isNegative (x : Binary64) : Bool := 0x8000000000000000 ≤ x.bits.toNat

/-- The exponent bits. -/
def exponent (x : Binary64) : Nat := x.bits.toNat / leadingOne % 2048

/-- The fraction bits. -/
def fraction (x : Binary64) : Nat := x.bits.toNat % leadingOne

/-- All exponent bits are set only in infinities and in what is no number. -/
def isFinite (x : Binary64) : Bool := x.exponent != 2047

/-- An infinity has no fraction bits. -/
def isInfinite (x : Binary64) : Bool := x.exponent == 2047 && x.fraction == 0

/-- A pattern that denotes no number. -/
def isNaN (x : Binary64) : Bool := x.exponent == 2047 && x.fraction != 0

/-- The fraction with the leading one that all but the smallest magnitudes have. -/
def significand (x : Binary64) : Nat :=
  if x.exponent = 0 then x.fraction else leadingOne + x.fraction

/-- How often the unit is doubled: the smallest magnitudes share the unit itself. -/
def scale (x : Binary64) : Nat := x.exponent - 1

/-- A finite magnitude, counted in units of `2 ^ -1074`. -/
def magnitude (x : Binary64) : Nat := x.significand <<< x.scale

/-- The positive infinity. -/
def infinity : Binary64 := ⟨0x7FF0000000000000⟩

/-- A pattern that denotes no number. -/
def nan : Binary64 := ⟨0x7FF8000000000000⟩

/-- The number with the other sign. -/
def negate (x : Binary64) : Binary64 := ⟨x.bits ^^^ 0x8000000000000000⟩

/-- Only an infinity and what is no number are not finite. -/
theorem isFinite_eq_not (x : Binary64) : x.isFinite = !(x.isNaN || x.isInfinite) := by
  unfold isFinite isNaN isInfinite bne
  cases x.exponent == 2047 <;> cases x.fraction == 0 <;> rfl

theorem not_isInfinite_of_isFinite {x : Binary64} (h : x.isFinite = true) :
    ¬ x.isInfinite = true := by
  intro hinfinite
  rw [isFinite_eq_not, hinfinite, Bool.or_true] at h
  cases h

/-- A significand has at most fifty-three bits. -/
theorem significand_lt (x : Binary64) : x.significand < 2 * leadingOne := by
  have hfraction : x.fraction < leadingOne := Nat.mod_lt _ (by decide)
  unfold significand
  split <;> omega

/-- Only the smallest magnitudes, which share the unit, lack the leading one. -/
theorem leadingOne_le_significand {x : Binary64} (h : 0 < x.scale) :
    leadingOne ≤ x.significand := by
  have hexponent : x.exponent ≠ 0 := by
    intro hzero
    rw [scale, hzero] at h
    exact absurd h (by decide)
  rw [significand, if_neg hexponent]
  exact Nat.le_add_right _ _

theorem magnitude_eq_zero_iff {x : Binary64} : x.magnitude = 0 ↔ x.significand = 0 := by
  have hpow := Nat.two_pow_pos x.scale
  rw [magnitude, Nat.shiftLeft_eq, Nat.mul_eq_zero, or_iff_left (Nat.ne_of_gt hpow)]

end Binary64

end LoxTokens
