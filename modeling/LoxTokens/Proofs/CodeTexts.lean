import Mathlib.Data.List.DropRight
import LoxTokens.Diagnostic.Code
import LoxTokens.Proofs.Decimals

/-!
# Codes are known by their texts

Zeros in front of a number change neither its digits' being digits nor what they denote. So the
digits that the text of a code ends with are those of its number and, where the family ends with
anything else, none but those: what stands before them is the family, and no two codes of such
families have one text.
-/

namespace LoxTokens.Code

/-- The family does not end with a decimal digit. It may be empty. -/
def EndsPlain (c : Code) : Prop := ∀ d ∈ c.family.toList.getLast?, d.isDigit = false

/-- What stands before the digits that the text of a code ends with. -/
def front (c : Code) : List Char := c.text.toList.rdropWhile Char.isDigit

/-- The digits that the text of a code ends with, as many as there are. -/
def lastDigits (c : Code) : List Char := c.text.toList.rtakeWhile Char.isDigit

/-- What the text of a code tells about it. -/
structure KnownByText (c : Code) : Prop where
  /-- Its family stands before the digits. -/
  front_eq : c.front = c.family.toList
  /-- There are four digits at least. -/
  four_le_length : 4 ≤ c.lastDigits.length
  /-- There are more only if the number has more. -/
  length_eq : c.lastDigits.length = max 4 (Nat.toDigits 10 c.number).length
  /-- They denote its number. -/
  value_eq : Nat.ofDigitChars 10 c.lastDigits 0 = c.number
  /-- Codes with other families or numbers have other texts. -/
  text_eq_iff : ∀ d : Code, d.EndsPlain → (c.text = d.text ↔ c = d)

variable {c : Code}

/-- Zeros stand in front of the digits of a number. -/
theorem toList_padded (n : Nat) :
    (padded n).toList =
      List.replicate (4 - (Nat.toDigits 10 n).length) '0' ++ Nat.toDigits 10 n :=
  String.toList_ofList

theorem length_padded (n : Nat) :
    (padded n).toList.length = max 4 (Nat.toDigits 10 n).length := by
  rw [toList_padded, List.length_append, List.length_replicate]
  omega

theorem isDigit_of_mem_padded {n : Nat} {d : Char} (h : d ∈ (padded n).toList) :
    d.isDigit = true := by
  rw [toList_padded] at h
  rcases List.mem_append.1 h with hzero | hdigit
  · exact isDigit_of_mem_zeros d hzero
  · exact (isDigits_toDigits n).2 d hdigit

/-- The zeros do not count. -/
theorem ofDigitChars_padded (n : Nat) : Nat.ofDigitChars 10 (padded n).toList 0 = n := by
  rw [toList_padded, Nat.ofDigitChars_append, Nat.ofDigitChars_replicate_zero, Nat.mul_zero,
    Nat.ofDigitChars_ten_toDigits]

/-- Where something ends differently, a row behind it is all that passes a test at the end. -/
theorem rtakeWhile_append {α : Type} {p : α → Bool} {as bs : List α}
    (has : ∀ a ∈ as.getLast?, p a = false) (hbs : ∀ b ∈ bs, p b = true) :
    (as ++ bs).rtakeWhile p = bs ∧ (as ++ bs).rdropWhile p = as := by
  have hend : ∀ h : as ≠ [], ¬ p (as.getLast h) = true := fun h => by
    rw [has _ (List.getLast?_eq_some_getLast h)]
    decide
  -- The row is taken from its end, one element after the other.
  induction bs using List.reverseRecOn with
  | nil =>
    rw [List.append_nil]
    exact ⟨List.rtakeWhile_eq_nil_iff.2 hend, List.rdropWhile_eq_self_iff.2 hend⟩
  | append_singleton bs b ih =>
    have hb : p b = true := hbs b (by simp)
    obtain ⟨htake, hdrop⟩ := ih fun b hb => hbs b (List.mem_append_left _ hb)
    rw [← List.append_assoc, List.rtakeWhile_concat_pos _ _ _ hb,
      List.rdropWhile_concat_pos _ _ _ hb, htake, hdrop]
    exact ⟨rfl, rfl⟩

theorem toList_text (c : Code) : c.text.toList = c.family.toList ++ (padded c.number).toList :=
  String.toList_append

theorem lastDigits_eq (h : c.EndsPlain) : c.lastDigits = (padded c.number).toList := by
  rw [lastDigits, toList_text]
  exact (rtakeWhile_append h fun _ => isDigit_of_mem_padded).1

theorem front_eq (h : c.EndsPlain) : c.front = c.family.toList := by
  rw [front, toList_text]
  exact (rtakeWhile_append h fun _ => isDigit_of_mem_padded).2

theorem value_lastDigits (h : c.EndsPlain) : Nat.ofDigitChars 10 c.lastDigits 0 = c.number := by
  rw [lastDigits_eq h, ofDigitChars_padded]

/-- A code is told by what stands before the digits and by what they denote. -/
theorem eq_of_text_eq {d : Code} (hc : c.EndsPlain) (hd : d.EndsPlain) (h : c.text = d.text) :
    c = d := by
  have hfamily : c.family.toList = d.family.toList := by
    rw [← front_eq hc, ← front_eq hd, front, front, h]
  have hnumber : c.number = d.number := by
    rw [← value_lastDigits hc, ← value_lastDigits hd, lastDigits, lastDigits, h]
  cases c
  cases d
  exact congrArg₂ mk (String.toList_injective hfamily) hnumber

/-- A code whose family does not end with a digit is known by its text, however many digits its
number has. -/
theorem known_by_text (c : Code) (h : c.EndsPlain) : c.KnownByText where
  front_eq := front_eq h
  four_le_length := by
    rw [lastDigits_eq h, length_padded]
    exact Nat.le_max_left _ _
  length_eq := by rw [lastDigits_eq h, length_padded]
  value_eq := value_lastDigits h
  text_eq_iff := fun _ hd => ⟨eq_of_text_eq h hd, congrArg text⟩

/-- A number of ten digits, behind a family with a digit of another script at its end. -/
theorem known_by_text_large :
    (⟨"E2-٣", 4294967295⟩ : Code).EndsPlain ∧ (⟨"E2-٣", 4294967295⟩ : Code).KnownByText := by
  have h : (⟨"E2-٣", 4294967295⟩ : Code).EndsPlain := by
    intro d hd
    cases hd
    rfl
  exact ⟨h, known_by_text _ h⟩

/-- A digit at the end of a family is taken for one of the number. -/
example : (⟨"E1", 2345⟩ : Code).text = (⟨"E", 12345⟩ : Code).text := by decide

end LoxTokens.Code
