import LoxTokens.Json.Record
import LoxTokens.Proofs.Decimals
import LoxTokens.Proofs.Json.Decoder
import LoxTokens.Proofs.Numerals

/-!
# Numbers in JSON

Every whole number and every finite double precision number is written by the grammar of numbers
(`isNumber_toDigits`, `isNumber_write`), and the decoder reads a number of the grammar in front of
anything that cannot lengthen it (`Decoder.number_append`).
-/

namespace LoxTokens.Json

open Toml.Reader

/-- A point with digits behind it, or nothing. -/
def IsFraction (text : List Char) : Prop :=
  text = [] ∨ ∃ digits, text = '.' :: digits ∧ IsDigits digits

/-- One of several signs, or nothing. -/
def IsSign (signs text : List Char) : Prop := text = [] ∨ ∃ c ∈ signs, text = [c]

/-- A power of ten with an optional sign, or nothing. -/
def IsExponent (text : List Char) : Prop :=
  text = [] ∨ ∃ mark sign digits, text = mark :: (sign ++ digits) ∧ mark ∈ ['e', 'E'] ∧
    IsSign ['+', '-'] sign ∧ IsDigits digits

/-- The grammar of numbers. -/
def IsNumber (text : List Char) : Prop :=
  ∃ sign whole part power, text = sign ++ (whole ++ (part ++ power)) ∧ IsSign ['-'] sign ∧
    IsWhole whole ∧ IsFraction part ∧ IsExponent power

/-- Only a character that no number has ends every number. -/
def EndsNumber (rest : List Char) : Prop :=
  ∀ c ∈ rest.head?, c.isDigit = false ∧ c ∉ ['.', 'e', 'E']

theorem isNumber_toDigits (n : Nat) : IsNumber (Nat.toDigits 10 n) :=
  ⟨[], Nat.toDigits 10 n, [], [], by simp, Or.inl rfl, isWhole_toDigits n, Or.inl rfl, Or.inl rfl⟩

theorem count?_number_toDigits (n : Nat) : (Value.number (Nat.toDigits 10 n)).count? = some n := by
  have hdigits : (Nat.toDigits 10 n).all Char.isDigit = true :=
    List.all_eq_true.2 (isDigits_toDigits n).2
  rw [Value.count?, hdigits, if_pos rfl, Toml.numeralValue_toDigits (by decide) (by decide)]

/-- A double precision number is written by the grammar, whatever its bits are. -/
theorem isNumber_write (x : Binary64) : IsNumber (numbers.write x).toList := by
  have hsign : IsSign ['-'] (if x.isNegative then "-" else "").toList := by
    cases x.isNegative with
    | true => exact Or.inr ⟨'-', List.mem_singleton_self _, rfl⟩
    | false => exact Or.inl rfl
  unfold Binary64.Layout.write
  dsimp only
  rw [String.toList_append, String.toList_ofList]
  generalize (if x.isNegative then "-" else "").toList = sign at hsign ⊢
  split
  · exact ⟨sign, ['0'], ['.', '0'], [], rfl, hsign, isWhole_zero,
      Or.inr ⟨['0'], rfl, isDigits_zero⟩, Or.inl rfl⟩
  · rename_i hne
    obtain ⟨hdigits, hhead⟩ := Binary64.isDigits_shortest hne numbers.tie
    split
    · obtain ⟨whole, part, hplain, hwhole, hpart⟩ :=
        Binary64.Layout.exists_plain_eq hdigits hhead
      rw [hplain]
      exact ⟨sign, whole, '.' :: part, [], by simp, hsign, hwhole, Or.inr ⟨part, rfl, hpart⟩,
        Or.inl rfl⟩
    · obtain ⟨first, part, hscientific, hwhole, hpart⟩ :=
        Binary64.Layout.exists_scientific_eq numbers hdigits hhead
      rw [hscientific]
      refine ⟨sign, [first], part, _, by rw [List.append_assoc], hsign, hwhole, hpart,
        Or.inr ⟨'e', _, _, rfl, List.mem_cons_self, ?_, isDigits_toDigits _⟩⟩
      split
      · exact Or.inr ⟨'-', by simp, rfl⟩
      · exact Or.inr ⟨'+', by simp, rfl⟩

namespace Decoder

variable {text rest : List Char}

theorem digits_append (h : IsDigits text) (hrest : ∀ c ∈ rest.head?, c.isDigit = false) :
    digits (text ++ rest) = some (text, rest) := by
  have hne : text.isEmpty = false := List.isEmpty_eq_false_iff.2 h.1
  rw [digits, bind_of_eq (run_append h.2 hrest), hne]
  rfl

theorem whole_append (h : IsWhole text) (hrest : ∀ c ∈ rest.head?, c.isDigit = false) :
    whole (text ++ rest) = some (text, rest) := by
  obtain ⟨hdigits, rfl | hhead⟩ := h
  · exact orElse_of_eq (map_of_eq (char_cons '0') _) _
  · obtain ⟨c, more, rfl⟩ := List.exists_cons_of_ne_nil hdigits.1
    have hzero : char '0' (c :: (more ++ rest)) = none := one_of_not (by simpa using hhead)
    rw [whole, List.cons_append, orElse_of_none (map_of_none hzero _), ← List.cons_append]
    exact digits_append hdigits hrest

theorem maybe_fraction_append (h : IsFraction text)
    (hrest : ∀ c ∈ rest.head?, c.isDigit = false ∧ c ≠ '.') :
    ∃ part, maybe fraction (text ++ rest) = some (part, rest) := by
  obtain rfl | ⟨digits, rfl, hdigits⟩ := h
  · have hpoint : char '.' rest = none := one_of_not fun c hc => beq_false_of_ne (hrest c hc).2
    exact ⟨none, maybe_of_none (seqRight_of_none hpoint _)⟩
  · have hread := digits_append hdigits fun c hc => (hrest c hc).1
    exact ⟨some digits, maybe_of_eq ((seqRight_of_eq (char_cons '.') _).trans hread)⟩

theorem oneOf_cons {cs : List Char} {c : Char} (h : c ∈ cs) :
    oneOf cs (c :: rest) = some (c, rest) := one_cons (List.contains_iff_mem.2 h)

theorem oneOf_of_not_mem {cs : List Char} (h : ∀ c ∈ rest.head?, c ∉ cs) :
    oneOf cs rest = none := one_of_not fun c hc => by simpa using h c hc

/-- A sign may stand in front of digits. -/
theorem maybe_sign_append {signs : List Char} (hsigns : ∀ c ∈ signs, c.isDigit = false)
    {sign : List Char} (h : IsSign signs sign) (hdigits : IsDigits text) (rest : List Char) :
    ∃ a, maybe (oneOf signs) (sign ++ (text ++ rest)) = some (a, text ++ rest) := by
  obtain rfl | ⟨c, hc, rfl⟩ := h
  · obtain ⟨d, more, rfl⟩ := List.exists_cons_of_ne_nil hdigits.1
    have hd := hdigits.2 d List.mem_cons_self
    refine ⟨none, maybe_of_none (oneOf_of_not_mem fun c hc hmem => ?_)⟩
    obtain rfl := Option.some.inj hc
    exact Text.ne_of_test hd (hsigns d hmem) rfl
  · exact ⟨some c, maybe_of_eq (oneOf_cons hc)⟩

theorem maybe_exponent_append (h : IsExponent text)
    (hrest : ∀ c ∈ rest.head?, c.isDigit = false ∧ c ∉ ['e', 'E']) :
    ∃ power, maybe exponent (text ++ rest) = some (power, rest) := by
  obtain rfl | ⟨mark, sign, digits, rfl, hmark, hsign, hdigits⟩ := h
  · have hmark := oneOf_of_not_mem fun c hc => (hrest c hc).2
    exact ⟨none, maybe_of_none (seqRight_of_none (seqRight_of_none hmark _) _)⟩
  · have hread := digits_append hdigits fun c hc => (hrest c hc).1
    obtain ⟨a, hsigned⟩ := maybe_sign_append (by simp) hsign hdigits rest
    refine ⟨some digits, maybe_of_eq ?_⟩
    rw [List.cons_append, List.append_assoc, exponent]
    exact (seqRight_of_eq ((seqRight_of_eq (oneOf_cons hmark) _).trans hsigned) _).trans hread

/-- A number is read as far as it goes. -/
theorem number_append (h : IsNumber text) (hrest : EndsNumber rest) :
    number (text ++ rest) = some (text, rest) := by
  obtain ⟨sign, whole, part, power, rfl, hsign, hwhole, hpart, hpower⟩ := h
  have hpoint : ∀ c ∈ (power ++ rest).head?, c.isDigit = false ∧ c ≠ '.' := by
    refine forall_mem_head?_append ?_ fun _ c hc => ⟨(hrest c hc).1, fun hc' => ?_⟩
    · obtain rfl | ⟨mark, _, _, rfl, hmark, -⟩ := hpower
      · simp
      · simp only [List.mem_cons, List.not_mem_nil, or_false] at hmark
        obtain rfl | rfl := hmark <;> simp
    · exact (hrest c hc).2 (by simp [hc'])
  have hdigit : ∀ c ∈ (part ++ (power ++ rest)).head?, c.isDigit = false := by
    refine forall_mem_head?_append ?_ fun _ c hc => (hpoint c hc).1
    obtain rfl | ⟨_, rfl, -⟩ := hpart <;> simp
  obtain ⟨_, hsigned⟩ := maybe_sign_append (by simp) hsign hwhole.1 (part ++ (power ++ rest))
  obtain ⟨_, hpart⟩ := maybe_fraction_append hpart hpoint
  obtain ⟨_, hpower⟩ := maybe_exponent_append hpower fun c hc =>
    ⟨(hrest c hc).1, fun hc' => (hrest c hc).2 (List.mem_cons_of_mem _ hc')⟩
  apply taken_of_eq
  simp only [List.append_assoc]
  exact (seqRight_of_eq ((seqRight_of_eq ((seqRight_of_eq hsigned _).trans
    (whole_append hwhole hdigit)) _).trans hpart) _).trans hpower

end Decoder

end LoxTokens.Json
