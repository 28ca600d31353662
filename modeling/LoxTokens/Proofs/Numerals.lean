import Mathlib.Data.List.Basic
import LoxTokens.Toml.Quoted

/-!
# What digits denote

The digits of a number denote it in every base up to sixteen, whatever zeros stand in front of them
and in whatever case its letters are written.
-/

namespace LoxTokens.Toml

variable {base : Nat}

theorem digitValue_digitChar : ∀ d < 16, digitValue (Nat.digitChar d) = d := by decide

theorem isHexDigit_digitChar : ∀ d < 16, isHexDigit (Nat.digitChar d) = true := by decide

theorem numeralValue_concat (digits : List Char) (c : Char) :
    numeralValue base (digits ++ [c]) = base * numeralValue base digits + digitValue c :=
  List.foldl_append

/-- The digits of a number denote it. -/
theorem numeralValue_toDigits (hbase : 1 < base) (hle : base ≤ 16) (n : Nat) :
    numeralValue base (Nat.toDigits base n) = n := by
  induction n using Nat.strongRecOn with
  | _ n ih =>
    rw [Nat.toDigits_eq_if hbase]
    split
    · rename_i hlt
      rw [← List.nil_append [_], numeralValue_concat, digitValue_digitChar n (by omega)]
      exact Nat.zero_add n
    · rename_i hge
      have hlt : n / base < n := Nat.div_lt_self (by omega) hbase
      have hmod : n % base < 16 := Nat.lt_of_lt_of_le (Nat.mod_lt n (by omega)) hle
      rw [numeralValue_concat, ih _ hlt, digitValue_digitChar _ hmod, Nat.div_add_mod]

/-- Zeros in front of digits do not count. -/
theorem numeralValue_leftpad (size : Nat) (digits : List Char) :
    numeralValue base (digits.leftpad size '0') = numeralValue base digits := by
  have hzeros (k : Nat) : numeralValue base (List.replicate k '0') = 0 := by
    induction k with
    | zero => rfl
    | succ k ih =>
      rw [List.replicate_succ', numeralValue_concat, ih, Nat.mul_zero]
      rfl
  unfold List.leftpad
  unfold numeralValue at hzeros ⊢
  rw [List.foldl_append, hzeros]

theorem exists_digitChar_of_mem_toDigits {n : Nat} {c : Char} (h : c ∈ Nat.toDigits 16 n) :
    ∃ d < 16, c = Nat.digitChar d := by
  induction n using Nat.strongRecOn with
  | _ n ih =>
    rw [Nat.toDigits_eq_if (by decide)] at h
    split at h
    · rename_i hlt
      exact ⟨n, hlt, List.mem_singleton.1 h⟩
    · rcases List.mem_append.1 h with h | h
      · exact ih (n / 16) (by omega) h
      · exact ⟨n % 16, Nat.mod_lt n (by decide), List.mem_singleton.1 h⟩

/-- A digit is the same one in upper case. -/
theorem digitValue_of_toLower {c : Char} {d : Nat} (hd : d < 16)
    (h : c.toLower = Nat.digitChar d) : isHexDigit c = true ∧ digitValue c = d := by
  have hascii : ∀ n < 0x80, ∀ d < 16, (Char.ofNat n).toLower = Nat.digitChar d →
      isHexDigit (Char.ofNat n) = true ∧ digitValue (Char.ofNat n) = d := by decide +kernel
  by_cases hc : c.toNat < 0x80
  · have hfinite := hascii c.toNat hc d hd
    rw [Char.ofNat_toNat] at hfinite
    exact hfinite h
  · -- Only letters change.
    have hsame : c.toLower = c := dif_neg fun hletter => hc <| by
      have hle : c.toNat ≤ 'Z'.toNat := UInt32.le_iff_toNat_le.1 hletter.2
      exact Nat.lt_of_le_of_lt hle (by decide)
    rw [hsame] at h
    rw [h]
    exact ⟨isHexDigit_digitChar d hd, digitValue_digitChar d hd⟩

/-- So digits in either case denote what those in lower case do. -/
theorem numeralValue_of_toLower {text : List Char}
    (h : ∀ c ∈ text, ∃ d < 16, c.toLower = Nat.digitChar d) :
    numeralValue base text = numeralValue base (text.map Char.toLower) := by
  rw [numeralValue, numeralValue, List.foldl_map]
  refine List.foldl_ext _ _ _ fun n c hc => ?_
  obtain ⟨d, hd, hlower⟩ := h c hc
  rw [(digitValue_of_toLower hd hlower).2, hlower, digitValue_digitChar d hd]

end LoxTokens.Toml
