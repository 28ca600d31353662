import Mathlib.Data.List.DropRight
import Mathlib.Tactic.Ring
import LoxTokens.Binary64.Layout

/-!
# Shapes of written numbers

The shortest decimal of a number other than zero starts with a digit other than zero: the grids that
are searched for it are never so coarse that the number lies below their first point. So however a
number is laid out, its whole part has no needless zeros, and digits stand on both sides of a point.
-/

namespace LoxTokens

/-- A row of decimal digits that is not empty. -/
def IsDigits (text : List Char) : Prop := text ≠ [] ∧ ∀ c ∈ text, c.isDigit = true

/-- A whole number without needless zeros in front. -/
def IsWhole (text : List Char) : Prop := IsDigits text ∧ (text = ['0'] ∨ text.head? ≠ some '0')

theorem IsDigits.append {a b : List Char} (ha : IsDigits a) (hb : ∀ c ∈ b, c.isDigit = true) :
    IsDigits (a ++ b) := by
  refine ⟨by simp [ha.1], fun c hc => ?_⟩
  rcases List.mem_append.1 hc with hc | hc
  · exact ha.2 c hc
  · exact hb c hc

theorem isDigit_of_mem_zeros {n : Nat} : ∀ c ∈ List.replicate n '0', c.isDigit = true := by
  intro c hc
  rw [List.eq_of_mem_replicate hc]
  rfl

theorem isDigits_zero : IsDigits ['0'] :=
  ⟨List.cons_ne_nil _ _, List.forall_mem_singleton.2 rfl⟩

theorem isDigits_toDigits (n : Nat) : IsDigits (Nat.toDigits 10 n) :=
  ⟨Nat.toDigits_ne_nil, fun _ => Nat.isDigit_of_mem_toDigits (by decide) (by decide)⟩

/-- The digits of a positive number do not start with a zero. -/
theorem head?_toDigits_ne {n : Nat} (h : 0 < n) : (Nat.toDigits 10 n).head? ≠ some '0' := by
  induction n using Nat.strongRecOn with
  | _ n ih =>
    rw [Nat.toDigits_eq_if (by decide)]
    split
    · rename_i hlt
      have hdigit : ∀ m < 10, 0 < m → Nat.digitChar m ≠ '0' := by decide
      simpa using hdigit n hlt h
    · have hrest := ih (n / 10) (by omega) (by omega)
      rwa [List.head?_append_of_ne_nil _ Nat.toDigits_ne_nil]

theorem isWhole_zero : IsWhole ['0'] := ⟨isDigits_zero, Or.inl rfl⟩

theorem isWhole_toDigits (n : Nat) : IsWhole (Nat.toDigits 10 n) := by
  refine ⟨isDigits_toDigits n, ?_⟩
  rcases Nat.eq_zero_or_pos n with rfl | hpos
  · exact Or.inl rfl
  · exact Or.inr (head?_toDigits_ne hpos)

/-- A number has at least the value of its first digit's place. -/
theorem pow_length_toDigits_le {n : Nat} (h : 0 < n) :
    10 ^ ((Nat.toDigits 10 n).length - 1) ≤ n := by
  rcases Nat.eq_zero_or_pos ((Nat.toDigits 10 n).length - 1) with hone | hmore
  · rw [hone]
    exact h
  · have hlength := Nat.length_toDigits_le_iff (b := 10) (n := n) (by decide) hmore
    have hpos := Nat.length_toDigits_pos (b := 10) (n := n)
    omega

namespace Binary64

namespace Shortest

/-- A point of a grid is not above a number if the first digit of the number does not stand below
the place of the grid. The number is scaled by a power of ten to find that digit. -/
theorem pow_mul_le {center unit e : Nat} {power : Int} (hunit : 0 < unit)
    (hle : unit ≤ center * 10 ^ e)
    (hp : power + e < (Nat.toDigits 10 (center * 10 ^ e / unit)).length) :
    10 ^ power.toNat * unit ≤ center * 10 ^ (-power).toNat := by
  have hplace := pow_length_toDigits_le (Nat.div_pos hle hunit)
  have hlength := Nat.length_toDigits_pos (b := 10) (n := center * 10 ^ e / unit)
  rw [Nat.le_div_iff_mul_le hunit] at hplace
  generalize (Nat.toDigits 10 (center * 10 ^ e / unit)).length = length at hp hplace hlength
  have hpower : power.toNat + e ≤ length - 1 + (-power).toNat := by omega
  refine Nat.le_of_mul_le_mul_right ?_ (Nat.pow_pos (n := e) (show 0 < 10 by decide))
  calc 10 ^ power.toNat * unit * 10 ^ e = 10 ^ (power.toNat + e) * unit := by ring
    _ ≤ 10 ^ (length - 1 + (-power).toNat) * unit :=
      Nat.mul_le_mul_right _ (Nat.pow_le_pow_right (by decide) hpower)
    _ = 10 ^ (length - 1) * unit * 10 ^ (-power).toNat := by ring
    _ ≤ center * 10 ^ e * 10 ^ (-power).toNat := Nat.mul_le_mul_right _ hplace
    _ = center * 10 ^ (-power).toNat * 10 ^ e := by ring

variable {x : Binary64}

theorem four_le_center (h : x.significand ≠ 0) : 4 ≤ center x := by
  rw [center, Nat.shiftLeft_eq]
  calc 4 ≤ 4 * x.significand := Nat.le_mul_of_pos_right 4 (Nat.pos_of_ne_zero h)
    _ ≤ 4 * x.significand * 2 ^ x.scale := Nat.le_mul_of_pos_right _ (Nat.two_pow_pos _)

/-- If the least number reaches the unit when it is scaled, so does any other. -/
theorem pos_div_point (e k : Nat) (power : Int) (hunit : 2 ^ k ≤ 4 * 10 ^ e)
    (h : x.significand ≠ 0)
    (hp : power + e < (Nat.toDigits 10 ((center x * Nat.pow 10 e) >>> k)).length) :
    0 < scaled power (center x) / ((1 * Nat.pow 10 power.toNat) <<< k) := by
  rw [Nat.shiftRight_eq_div_pow] at hp
  have hcenter : 2 ^ k ≤ center x * 10 ^ e :=
    Nat.le_trans hunit (Nat.mul_le_mul_right _ (four_le_center h))
  have hpoint := pow_mul_le (Nat.two_pow_pos k) hcenter hp
  rw [Nat.one_mul, Nat.shiftLeft_eq]
  exact Nat.div_pos hpoint (Nat.mul_pos (Nat.pow_pos (by decide)) (Nat.two_pow_pos k))

/-- A number other than zero is not below the first point of any grid that is searched. -/
theorem pos_below (h : x.significand ≠ 0) {power : Int} (hp : power ≤ leadingPower x) :
    0 < below x power := by
  have hunit : 2 ^ 1076 ≤ 4 * 10 ^ 400 := by decide +kernel
  have hone : (401 : Int) = (400 : Nat) + 1 := rfl
  unfold leadingPower at hp
  rw [hone] at hp
  unfold below point
  -- The powers are too large to be worked out.
  generalize 400 = e at hunit hp
  generalize 1076 = k at hunit hp ⊢
  exact pos_div_point e k power hunit h (by omega)

/-- The point of a grid that is taken is the one below the number or the next one. The next one is
taken only if it reads back. -/
theorem onGrid?_cases {tie : Tie} {power : Int} {d : Nat} (h : onGrid? tie x power = some d) :
    d = below x power ∨ d = below x power + 1 ∧ readsBack x power (below x power + 1) = true := by
  unfold onGrid? at h
  dsimp only at h
  split at h
  · cases h
  · exact Or.inl (Option.some.inj h).symm
  · rename_i hnext
    exact Or.inr ⟨(Option.some.inj h).symm, hnext⟩
  · rename_i hnext
    split at h
    · exact Or.inl (Option.some.inj h).symm
    split at h
    · exact Or.inr ⟨(Option.some.inj h).symm, hnext⟩
    cases tie with
    | up => exact Or.inr ⟨(Option.some.inj h).symm, hnext⟩
    | even =>
      rcases Nat.mod_two_eq_zero_or_one (below x power) with heven | hodd
      · rw [heven] at h
        exact Or.inl (Option.some.inj h).symm
      · rw [hodd] at h
        exact Or.inr ⟨(Option.some.inj h).symm, hnext⟩

/-- Neither is the point that is found. -/
theorem pos_search (h : x.significand ≠ 0) (tie : Tie) (n : Nat) {power : Int}
    (hp : power ≤ leadingPower x) : 0 < (search tie x n power).1 := by
  induction n generalizing power with
  | zero => exact pos_below h hp
  | succ n ih =>
    have hbelow := pos_below h hp
    rw [search]
    cases hd : onGrid? tie x power with
    | none => exact ih (by omega)
    | some d =>
      rcases onGrid?_cases hd with rfl | ⟨rfl, -⟩
      · exact hbelow
      · exact Nat.succ_pos _

end Shortest

/-- The shortest decimal of a number other than zero has digits, and the first one is not zero. -/
theorem isDigits_shortest {x : Binary64} (h : x.significand ≠ 0) (tie : Tie) :
    IsDigits (shortest tie x).digits ∧ (shortest tie x).digits.head? ≠ some '0' := by
  have hpos := Shortest.pos_search h tie 17 (Int.le_refl _)
  rw [shortest]
  generalize Shortest.search tie x 17 (Shortest.leadingPower x) = found at hpos
  obtain ⟨d, power⟩ := found
  change IsDigits (List.rdropWhile (· == '0') (Nat.toDigits 10 d)) ∧
    (List.rdropWhile (· == '0') (Nat.toDigits 10 d)).head? ≠ some '0'
  obtain ⟨hne, hdigits⟩ := isDigits_toDigits d
  have hhead := head?_toDigits_ne hpos
  obtain ⟨zeros, htrimmed⟩ := List.rdropWhile_prefix (· == '0') (Nat.toDigits 10 d)
  -- The first digit stays, since it is no zero.
  have hstays : List.rdropWhile (· == '0') (Nat.toDigits 10 d) ≠ [] := by
    intro hnil
    rw [List.rdropWhile_eq_nil_iff] at hnil
    obtain ⟨c, cs, hcs⟩ := List.exists_cons_of_ne_nil hne
    rw [hcs] at hhead hnil
    have hc := hnil c List.mem_cons_self
    simp_all
  refine ⟨⟨hstays, fun c hc => hdigits c ?_⟩, ?_⟩
  · rw [← htrimmed]
    exact List.mem_append_left _ hc
  · rwa [← htrimmed, List.head?_append_of_ne_nil _ hstays] at hhead

namespace Layout

variable {s : Scientific}

/-- A plain number has a whole part, a point, and a part behind the point. -/
theorem exists_plain_eq (hdigits : IsDigits s.digits) (hhead : s.digits.head? ≠ some '0') :
    ∃ whole part, plain s = whole ++ '.' :: part ∧ IsWhole whole ∧ IsDigits part := by
  unfold plain
  split
  · refine ⟨['0'], _, rfl, isWhole_zero, by simp [hdigits.1], fun c hc => ?_⟩
    exact (List.mem_append.1 hc).elim (isDigit_of_mem_zeros c) (hdigits.2 c)
  · dsimp only
    split
    · refine ⟨_, ['0'], rfl, ⟨hdigits.append isDigit_of_mem_zeros, Or.inr ?_⟩, isDigits_zero⟩
      rwa [List.head?_append_of_ne_nil _ hdigits.1]
    · rename_i hlength
      refine ⟨s.digits.take (s.exponent.toNat + 1), s.digits.drop (s.exponent.toNat + 1), rfl,
        ⟨⟨?_, fun c hc => hdigits.2 c (List.mem_of_mem_take hc)⟩, Or.inr ?_⟩,
        ?_, fun c hc => hdigits.2 c (List.mem_of_mem_drop hc)⟩
      · simp [hdigits.1]
      · rwa [List.head?_take, if_neg (by omega)]
      · rw [ne_eq, List.drop_eq_nil_iff]
        omega

/-- Otherwise there is one digit, a point only in front of others, and an exponent. -/
theorem exists_scientific_eq (l : Layout) (hdigits : IsDigits s.digits)
    (hhead : s.digits.head? ≠ some '0') :
    ∃ first part, l.scientific s =
        [first] ++ part ++ 'e' :: ((if s.exponent < 0 then "-" else l.mark).toList ++
          Nat.toDigits 10 s.exponent.natAbs) ∧
      IsWhole [first] ∧ (part = [] ∨ ∃ digits, part = '.' :: digits ∧ IsDigits digits) := by
  unfold scientific
  have hwhole {first : Char} {more : List Char} (hs : s.digits = first :: more) :
      IsWhole [first] := by
    rw [hs] at hdigits hhead
    refine ⟨⟨List.cons_ne_nil _ _, ?_⟩, Or.inr hhead⟩
    exact List.forall_mem_singleton.2 (hdigits.2 first List.mem_cons_self)
  rcases hs : s.digits with _ | ⟨first, _ | ⟨next, more⟩⟩
  · exact absurd hs hdigits.1
  · exact ⟨first, [], by simp [Nat.repr_eq_ofList_toDigits], hwhole hs, Or.inl rfl⟩
  · refine ⟨first, '.' :: next :: more, by simp [Nat.repr_eq_ofList_toDigits], hwhole hs,
      Or.inr ⟨_, rfl, List.cons_ne_nil _ _, fun c hc => ?_⟩⟩
    rw [hs] at hdigits
    exact hdigits.2 c (List.mem_cons_of_mem first hc)

/-- Digits, a minus sign, a point, an `e` and the mark of the layout are all that a number shows. -/
theorem forall_mem_write {P : Char → Prop} (hdigit : ∀ c, c.isDigit = true → P c)
    (hminus : P '-') (hpoint : P '.') (he : P 'e') {l : Layout} (hmark : ∀ c ∈ l.mark.toList, P c)
    (x : Binary64) : ∀ c ∈ (l.write x).toList, P c := by
  have hrow {text : List Char} (h : ∀ c ∈ text, c.isDigit = true) : ∀ c ∈ text, P c :=
    fun c hc => hdigit c (h c hc)
  have hminus : ∀ c ∈ "-".toList, P c := List.forall_mem_singleton.2 hminus
  unfold write
  dsimp only
  rw [String.toList_append, String.toList_ofList, List.forall_mem_append]
  constructor
  · split
    · exact hminus
    · exact nofun
  split
  · have hzero : "0.0".toList = ['0', '.', '0'] := rfl
    simp only [hzero, List.forall_mem_cons]
    exact ⟨hdigit '0' rfl, hpoint, hdigit '0' rfl, nofun⟩
  rename_i hne
  obtain ⟨hdigits, hhead⟩ := isDigits_shortest hne l.tie
  split
  · obtain ⟨whole, part, hplain, hwhole, hpart⟩ := exists_plain_eq hdigits hhead
    rw [hplain, List.forall_mem_append, List.forall_mem_cons]
    exact ⟨hrow hwhole.1.2, hpoint, hrow hpart.2⟩
  · obtain ⟨first, part, hscientific, hwhole, hpart⟩ := exists_scientific_eq l hdigits hhead
    have hbehind : ∀ c ∈ part, P c := by
      obtain rfl | ⟨digits, rfl, hdigits⟩ := hpart
      · exact nofun
      · exact List.forall_mem_cons.2 ⟨hpoint, hrow hdigits.2⟩
    have hsign : ∀ c ∈ (if (shortest l.tie x).exponent < 0 then "-" else l.mark).toList, P c := by
      split
      · exact hminus
      · exact hmark
    rw [hscientific, List.forall_mem_append, List.forall_mem_append]
    refine ⟨⟨hrow hwhole.1.2, hbehind⟩, List.forall_mem_cons.2 ⟨he, ?_⟩⟩
    exact List.forall_mem_append.2 ⟨hsign, hrow (isDigits_toDigits _).2⟩

end Layout

end Binary64

end LoxTokens
