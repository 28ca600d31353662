import LoxTokens.Proofs.Decimals

/-!
# Powers of ten and written numbers

The shortest decimal of a number may lie above the number, but not as far as the next power of ten
if all that reads back as the number lies below that power. So its first digit stands where the
first digit of the number does. For the two bounds of the plain form this is true of every number:
no decimal from `1e16` on reads back as a number below it, and none from `1e-4` on does.
-/

namespace LoxTokens.Binary64

namespace Shortest

section

variable {value unit coefficient : Nat} {power k : Int}

/-- On a finer grid a power of ten is the power of ten of the difference. -/
theorem pow_sub_mul_le (hp : power ≤ k)
    (h : 10 ^ k.toNat * unit ≤ value * 10 ^ (-k).toNat) :
    10 ^ (k - power).toNat * (10 ^ power.toNat * unit) ≤ value * 10 ^ (-power).toNat := by
  have hpowers : (k - power).toNat + power.toNat + (-k).toNat = k.toNat + (-power).toNat := by
    omega
  refine Nat.le_of_mul_le_mul_right ?_ (Nat.pow_pos (n := (-k).toNat) (show 0 < 10 by decide))
  calc 10 ^ (k - power).toNat * (10 ^ power.toNat * unit) * 10 ^ (-k).toNat
      = 10 ^ ((k - power).toNat + power.toNat + (-k).toNat) * unit := by ring
    _ = 10 ^ k.toNat * unit * 10 ^ (-power).toNat := by rw [hpowers]; ring
    _ ≤ value * 10 ^ (-k).toNat * 10 ^ (-power).toNat := Nat.mul_le_mul_right _ h
    _ = value * 10 ^ (-power).toNat * 10 ^ (-k).toNat := by ring

/-- A point of a grid that is not above a value lies below the powers of ten that the value lies
below. -/
theorem mul_pow_lt (hpoint : coefficient * 10 ^ power.toNat * unit ≤ value * 10 ^ (-power).toNat)
    (h : value * 10 ^ (-k).toNat < 10 ^ k.toNat * unit) :
    coefficient * 10 ^ (power.toNat + (-k).toNat) < 10 ^ (k.toNat + (-power).toNat) := by
  refine Nat.lt_of_mul_lt_mul_right (a := unit) ?_
  calc coefficient * 10 ^ (power.toNat + (-k).toNat) * unit
      = coefficient * 10 ^ power.toNat * unit * 10 ^ (-k).toNat := by ring
    _ ≤ value * 10 ^ (-power).toNat * 10 ^ (-k).toNat := Nat.mul_le_mul_right _ hpoint
    _ = value * 10 ^ (-k).toNat * 10 ^ (-power).toNat := by ring
    _ < 10 ^ k.toNat * unit * 10 ^ (-power).toNat :=
      Nat.mul_lt_mul_of_pos_right h (Nat.pow_pos (by decide))
    _ = 10 ^ (k.toNat + (-power).toNat) * unit := by ring

end

variable {x : Binary64} {power k : Int}

theorem center_le_upper (x : Binary64) : center x ≤ upper x := by
  rw [center, upper, Nat.shiftLeft_eq, Nat.shiftLeft_eq]
  exact Nat.mul_le_mul_right _ (Nat.le_add_right _ _)

theorem point_eq_mul (power : Int) (coefficient : Nat) :
    point power coefficient = coefficient * point power 1 := by
  unfold point
  generalize 1076 = u
  rw [Nat.shiftLeft_eq, Nat.shiftLeft_eq, Nat.one_mul, Nat.mul_assoc]

/-- The point below a number is not above the number. -/
theorem point_below_le (x : Binary64) (power : Int) :
    point power (below x power) ≤ scaled power (center x) := by
  rw [point_eq_mul]
  exact Nat.div_mul_le_self _ _

/-- What is found is not below the point below the number, and not above all that reads back. -/
theorem search_bounds (tie : Tie) (x : Binary64) (n : Nat) (power : Int) :
    let found := search tie x n power
    below x found.2 ≤ found.1 ∧ point found.2 found.1 ≤ scaled found.2 (upper x) := by
  have hbelow (power : Int) : point power (below x power) ≤ scaled power (upper x) :=
    Nat.le_trans (point_below_le x power) (Nat.mul_le_mul_right _ (center_le_upper x))
  induction n generalizing power with
  | zero => exact ⟨Nat.le_refl _, hbelow power⟩
  | succ n ih =>
    rw [search]
    cases hd : onGrid? tie x power with
    | none => exact ih (power - 1)
    | some d =>
      rcases onGrid?_cases hd with rfl | ⟨rfl, hreads⟩
      · exact ⟨Nat.le_refl _, hbelow power⟩
      · refine ⟨Nat.le_succ _, ?_⟩
        rw [readsBack] at hreads
        split at hreads
        · exact of_decide_eq_true (Bool.and_eq_true_iff.1 hreads).2
        · exact Nat.le_of_lt (of_decide_eq_true (Bool.and_eq_true_iff.1 hreads).2)

/-- A power of ten that is not above a number is not above the points of a finer grid from the one
below the number on. -/
theorem pow_le_below (hp : power ≤ k) (h : point k 1 ≤ scaled k (center x)) :
    10 ^ (k - power).toNat ≤ below x power := by
  unfold below point scaled at *
  generalize 1076 = u at *
  have hpos : 0 < (1 * Nat.pow 10 power.toNat) <<< u := by
    rw [Nat.shiftLeft_eq, Nat.one_mul]
    exact Nat.mul_pos (Nat.pow_pos (by decide)) (Nat.two_pow_pos u)
  rw [Nat.le_div_iff_mul_le hpos]
  rw [Nat.shiftLeft_eq, Nat.one_mul] at h ⊢
  exact pow_sub_mul_le hp h

end Shortest

variable {x : Binary64} {k : Int}

open Shortest

/-- The first digit stands where it does in a point that is found on a grid. -/
theorem exists_exponent_shortest_eq (tie : Tie) (x : Binary64) :
    ∃ d power, (shortest tie x).exponent = power + (Nat.toDigits 10 d).length - 1 ∧
      below x power ≤ d ∧ point power d ≤ scaled power (upper x) ∧ (x.significand ≠ 0 → 0 < d) := by
  obtain ⟨hbelow, hupper⟩ := search_bounds tie x 17 (leadingPower x)
  exact ⟨_, _, rfl, hbelow, hupper, fun hne => pos_search hne tie 17 (Int.le_refl _)⟩

/-- The first digit of a number that reaches a power of ten does not stand below that power. -/
theorem le_exponent_shortest (tie : Tie) (h : point k 1 ≤ scaled k (center x)) :
    k ≤ (shortest tie x).exponent := by
  obtain ⟨d, power, hexponent, hbelow, -, -⟩ := exists_exponent_shortest_eq tie x
  have hlength := Nat.length_toDigits_pos (b := 10) (n := d)
  by_cases hp : k ≤ power
  · omega
  have hpow := Nat.le_trans (pow_le_below (by omega) h) hbelow
  have hlt : ¬ (Nat.toDigits 10 d).length ≤ (k - power).toNat := by
    rw [Nat.length_toDigits_le_iff (by decide) (by omega)]
    exact Nat.not_lt.2 hpow
  omega

/-- The first digit of a number stands below a power of ten if all that reads back as the number
does. -/
theorem exponent_shortest_lt (hne : x.significand ≠ 0) (tie : Tie)
    (h : scaled k (upper x) < point k 1) : (shortest tie x).exponent < k := by
  obtain ⟨d, power, hexponent, -, hupper, hpos⟩ := exists_exponent_shortest_eq tie x
  have hlt : d * 10 ^ (power.toNat + (-k).toNat) < 10 ^ (k.toNat + (-power).toNat) := by
    unfold point scaled at *
    generalize 1076 = u at *
    rw [Nat.shiftLeft_eq] at hupper h
    rw [Nat.one_mul] at h
    exact mul_pow_lt hupper h
  have hp : power < k := by
    have hpow := Nat.lt_of_le_of_lt (Nat.le_mul_of_pos_left _ (hpos hne)) hlt
    have hplaces := (Nat.pow_lt_pow_iff_right (by decide)).1 hpow
    omega
  have hsplit : k.toNat + (-power).toNat = (k - power).toNat + (power.toNat + (-k).toNat) := by
    omega
  rw [hsplit, Nat.pow_add 10 (k - power).toNat] at hlt
  have hd : d < 10 ^ (k - power).toNat := Nat.lt_of_mul_lt_mul_right hlt
  have hlength := (Nat.length_toDigits_le_iff (by decide) (by omega)).2 hd
  omega

/-- The first digit of a number stands where the number says, unless a power of ten lies between the
number and what still reads back as it. -/
theorem le_exponent_shortest_iff (hne : x.significand ≠ 0) (tie : Tie)
    (hgap : scaled k (center x) < point k 1 → scaled k (upper x) < point k 1) :
    k ≤ (shortest tie x).exponent ↔ point k 1 ≤ scaled k (center x) := by
  constructor
  · intro hle
    by_contra hlt
    exact absurd (exponent_shortest_lt hne tie (hgap (Nat.not_le.1 hlt))) (Int.not_lt.2 hle)
  · exact le_exponent_shortest tie

theorem center_eq (x : Binary64) : center x = 4 * x.magnitude := by
  rw [center, magnitude, Nat.shiftLeft_eq, Nat.shiftLeft_eq, Nat.mul_assoc]

/-- Let a bound lie between two neighbouring powers of two. Nothing from the bound on reads back as
a number below it, if this is true of the numbers between the powers of two. -/
theorem upper_mul_lt {a b s : Nat} (hb : 0 < b) (hlow : leadingOne * b ≤ a)
    (hhigh : a ≤ 2 * leadingOne * b) (hstep : ∀ n, n * b < a → (4 * n + 2) * b < 4 * a)
    (h : x.magnitude * b < a * 2 ^ s) : upper x * b < 4 * (a * 2 ^ s) := by
  rw [magnitude, Nat.shiftLeft_eq] at h
  rw [upper, Nat.shiftLeft_eq]
  rcases Nat.lt_trichotomy x.scale s with hlt | rfl | hgt
  · have hsignificand := x.significand_lt
    calc (4 * x.significand + 2) * 2 ^ x.scale * b
        < 8 * leadingOne * 2 ^ x.scale * b :=
          Nat.mul_lt_mul_of_pos_right
            (Nat.mul_lt_mul_of_pos_right (by omega) (Nat.two_pow_pos x.scale)) hb
      _ = 4 * (leadingOne * b * 2 ^ (x.scale + 1)) := by ring
      _ ≤ 4 * (a * 2 ^ s) :=
        Nat.mul_le_mul_left 4 (Nat.mul_le_mul hlow (Nat.pow_le_pow_right (by decide) hlt))
  · have hn : x.significand * b < a := by
      refine Nat.lt_of_mul_lt_mul_right (a := 2 ^ x.scale) ?_
      calc x.significand * b * 2 ^ x.scale = x.significand * 2 ^ x.scale * b := by ring
        _ < a * 2 ^ x.scale := h
    calc (4 * x.significand + 2) * 2 ^ x.scale * b
        = (4 * x.significand + 2) * b * 2 ^ x.scale := by ring
      _ < 4 * a * 2 ^ x.scale :=
        Nat.mul_lt_mul_of_pos_right (hstep _ hn) (Nat.two_pow_pos x.scale)
      _ = 4 * (a * 2 ^ x.scale) := by ring
  · -- A number with a greater scale is not below the bound.
    have hsignificand := leadingOne_le_significand (Nat.zero_lt_of_lt hgt)
    refine absurd h (Nat.not_lt.2 ?_)
    calc a * 2 ^ s ≤ 2 * leadingOne * b * 2 ^ s := Nat.mul_le_mul_right _ hhigh
      _ = leadingOne * 2 ^ (s + 1) * b := by ring
      _ ≤ x.significand * 2 ^ x.scale * b :=
        Nat.mul_le_mul_right _ (Nat.mul_le_mul hsignificand (Nat.pow_le_pow_right (by decide) hgt))

/-- Nothing from `1e16` on reads back as a number below it, whatever the unit. -/
theorem upper_lt_of_magnitude_lt {t : Nat} (h : x.magnitude < 10 ^ 16 * 2 ^ t) :
    upper x < 4 * (10 ^ 16 * 2 ^ t) := by
  have hbound : 10 ^ 16 * 2 ^ t = 5 * 10 ^ 15 * 2 ^ (t + 1) := by ring
  have hupper : upper x * 1 < 4 * (5 * 10 ^ 15 * 2 ^ (t + 1)) :=
    upper_mul_lt Nat.one_pos (by decide) (by decide) (by omega)
      (by rwa [Nat.mul_one, ← hbound])
  rwa [Nat.mul_one, ← hbound] at hupper

/-- Nothing from `1e-4` on reads back as a number below it, if the unit is a small one. -/
theorem upper_mul_lt_of_magnitude_mul_lt {t : Nat} (h : x.magnitude * 10 ^ 4 < 2 ^ (66 + t)) :
    upper x * 10 ^ 4 < 4 * 2 ^ (66 + t) := by
  rw [Nat.pow_add] at h ⊢
  exact upper_mul_lt (by decide) (by decide) (by decide) (by omega) h

theorem shiftLeft_add_two (n t : Nat) : (1 * n) <<< (t + 2) = 4 * (n * 2 ^ t) := by
  rw [Nat.shiftLeft_eq, Nat.pow_add]
  ring

/-- A power of ten, counted in quarter units. -/
theorem point_one (k : Int) : point k 1 = 4 * (10 ^ k.toNat * 2 ^ 1074) :=
  shiftLeft_add_two _ 1074

/-- The first digit stands at least at the seventeenth place in front of the point just if the
number reaches `1e16`. -/
theorem sixteen_le_exponent_iff (hne : x.significand ≠ 0) (tie : Tie) :
    16 ≤ (shortest tie x).exponent ↔ 10 ^ 16 * 2 ^ 1074 ≤ x.magnitude := by
  have hpoint := point_one 16
  have hupper : x.magnitude < 10 ^ 16 * 2 ^ 1074 → upper x < 4 * (10 ^ 16 * 2 ^ 1074) :=
    upper_lt_of_magnitude_lt
  -- The powers are too large to be worked out.
  generalize 2 ^ 1074 = unit at *
  have hplace : (16 : Int).toNat = 16 := rfl
  have hscaled (q : Nat) : scaled 16 q = q := Nat.mul_one q
  rw [hplace] at hpoint
  rw [le_exponent_shortest_iff hne tie (k := 16)] <;> rw [hpoint, hscaled, x.center_eq]
  · rw [Nat.mul_le_mul_left_iff (by decide)]
  · rw [hscaled]
    exact fun hlt => hupper (Nat.lt_of_mul_lt_mul_left hlt)

/-- It stands at most at the fourth place behind the point just if the number reaches `1e-4`. -/
theorem neg_four_le_exponent_iff (hne : x.significand ≠ 0) (tie : Tie) :
    -4 ≤ (shortest tie x).exponent ↔ 2 ^ 1074 ≤ x.magnitude * 10 ^ 4 := by
  have hpoint := point_one (-4)
  have hupper : x.magnitude * 10 ^ 4 < 2 ^ 1074 → upper x * 10 ^ 4 < 4 * 2 ^ 1074 := by
    have hunit : 1074 = 66 + 1008 := rfl
    rw [hunit]
    exact upper_mul_lt_of_magnitude_mul_lt
  generalize 2 ^ 1074 = unit at *
  have hplace : (-4 : Int).toNat = 0 := rfl
  have hscaled (q : Nat) : scaled (-4) q = q * 10 ^ 4 := rfl
  rw [hplace, Nat.pow_zero, Nat.one_mul] at hpoint
  rw [le_exponent_shortest_iff hne tie (k := -4)] <;>
    rw [hpoint, hscaled, x.center_eq, Nat.mul_assoc]
  · rw [Nat.mul_le_mul_left_iff (by decide)]
  · rw [hscaled]
    exact fun hlt => hupper (Nat.lt_of_mul_lt_mul_left hlt)

/-- Zero, or a number from `1e-4` up to below `1e16`. -/
def Moderate (x : Binary64) : Prop :=
  x.isFinite = true ∧
    (x.magnitude = 0 ∨ 2 ^ 1074 ≤ x.magnitude * 10 ^ 4 ∧ x.magnitude < 10 ^ 16 * 2 ^ 1074)

/-- Of the finite numbers other than zero these are the ones whose first digit stands near the
point. -/
theorem moderate_iff (hfinite : x.isFinite = true) (hne : x.significand ≠ 0) (tie : Tie) :
    x.Moderate ↔ -4 ≤ (shortest tie x).exponent ∧ (shortest tie x).exponent ≤ 15 := by
  have hlast (e : Int) : e < 16 ↔ e ≤ 15 := by omega
  have hleast := neg_four_le_exponent_iff hne tie
  have hgreatest := not_congr (sixteen_le_exponent_iff hne tie)
  rw [Nat.not_le] at hgreatest
  rw [Moderate, magnitude_eq_zero_iff, and_iff_right hfinite, or_iff_right hne, ← hleast,
    ← hgreatest, Int.not_le, hlast]

end LoxTokens.Binary64
