import LoxTokens.Binary64.Basic
import LoxTokens.Text.Class

/-!
# Reading decimal numbers

A decimal numeral denotes a fraction, and it reads as the double precision number nearest to that
fraction, whatever its length: of two equally near ones the one with the even significand, and
infinity beyond the largest.
-/

namespace LoxTokens.Binary64

/-- The whole number nearest to a quotient, a half going to the even neighbour. -/
def roundDiv (num den : Nat) : Nat :=
  let q := num / den
  let r := num % den
  if 2 * r < den then q else if den < 2 * r then q + 1 else q + q % 2

/-- The number nearest to a quotient. The significand of a magnitude of `n` units keeps the
fifty-three leading bits of `n`, and the bit pattern of a number is its significand plus its scale
times `leadingOne`. -/
def nearest (num den : Nat) : Binary64 :=
  let units := num <<< 1074
  let scale := (units / den).log2 - 52
  let pattern := roundDiv units (den <<< scale) + scale * leadingOne
  if pattern < 2047 * leadingOne then ⟨UInt64.ofNat pattern⟩ else infinity

/-- The number that a row of decimal digits denotes. -/
def digitsValue (digits : List Char) : Nat :=
  digits.foldl (fun n c => 10 * n + (c.toNat - '0'.toNat)) 0

/-- Read a row of digits times a power of ten. Far beyond the range of magnitudes the powers are
not worked out. -/
def ofScientific (digits : List Char) (power : Int) : Binary64 :=
  let row := digits.dropWhile (· == '0')
  let size := power + row.length
  if row.isEmpty ∨ size < -400 then ⟨0⟩
  else if 400 < size then infinity
  else nearest (digitsValue row * Nat.pow 10 power.toNat) (Nat.pow 10 (-power).toNat)

/-- Read digits with or without a point among them. -/
def ofNumeral (text : List Char) : Binary64 :=
  let whole := text.takeWhile (· != '.')
  let part := (text.dropWhile (· != '.')).drop 1
  nearest (digitsValue (whole ++ part)) (Nat.pow 10 part.length)

/-- Read digits and points, if there is a digit and no second point. -/
def ofNumeral? (text : List Char) : Option Binary64 :=
  if text.all (fun c => Text.isDigit c || c == '.') ∧ text.any Text.isDigit ∧
      text.count '.' ≤ 1 then
    some (ofNumeral text)
  else none

/-- A quotient reads as a pattern below that of infinity, or as infinity. -/
theorem nearest_cases (num den : Nat) :
    (nearest num den).bits.toNat < 2047 * leadingOne ∨ nearest num den = infinity := by
  simp only [nearest]
  generalize roundDiv _ _ + _ = pattern
  split
  · rename_i h
    have hsize : pattern < UInt64.size := Nat.lt_trans h (by decide)
    rw [UInt64.toNat_ofNat_of_lt' hsize]
    exact Or.inl h
  · exact Or.inr rfl

/-- What is read is a number. -/
theorem isNaN_nearest (num den : Nat) : (nearest num den).isNaN = false := by
  rcases nearest_cases num den with hlt | h
  · have hquotient := Nat.div_lt_of_lt_mul (Nat.mul_comm 2047 leadingOne ▸ hlt)
    have hexponent : (nearest num den).exponent ≠ 2047 := by
      rw [exponent, Nat.mod_eq_of_lt (Nat.lt_succ_of_lt hquotient)]
      exact Nat.ne_of_lt hquotient
    rw [isNaN, beq_eq_false_iff_ne.2 hexponent, Bool.false_and]
  · rw [h]
    rfl

/-- It has no sign. -/
theorem isNegative_nearest (num den : Nat) : (nearest num den).isNegative = false := by
  rcases nearest_cases num den with hlt | h
  · exact decide_eq_false (Nat.not_le.2 (Nat.lt_trans hlt (by decide)))
  · rw [h]
    rfl

end LoxTokens.Binary64
