import LoxTokens.Proofs.Literals
import LoxTokens.Proofs.Magnitudes
import LoxTokens.Proofs.Writing

/-!
# Texts of numbers

A number literal is shown with a point and with digits on both sides of it if its value is zero or
from `1e-4` up to below `1e16`, and only such a text is a number again. Beyond these bounds an
exponent is shown, whether there is a point or not, and beyond the largest number a word.
-/

namespace LoxTokens

/-- Digits, a point, and digits. -/
def Pointed (text : List Char) : Prop :=
  ∃ whole part, IsDigits whole ∧ IsDigits part ∧ text = whole ++ '.' :: part

/-- A number of the grammar and the power of ten that it is multiplied by. -/
def Exponential (text : List Char) : Prop :=
  ∃ coefficient sign power, coefficient ∈ Rule.number.language ∧ (sign = [] ∨ sign = ['-']) ∧
    IsDigits power ∧ text = coefficient ++ 'e' :: (sign ++ power)

/-- There is nothing in a text but a number. -/
def ScansAsNumber (text : List Char) : Prop :=
  (Scan.ofText text).errors = [] ∧
    ∃ t, proper (Scan.ofText text).tokens = [t] ∧ t.kind = .number

variable {text : List Char}

theorem Pointed.mem_number (h : Pointed text) : text ∈ Rule.number.language := by
  obtain ⟨whole, part, hwhole, hpart, rfl⟩ := h
  exact Rule.mem_number_iff.2
    ⟨whole, hwhole.1, hwhole.2, Or.inr ⟨part, hpart.1, hpart.2, rfl⟩⟩

/-- A number of the grammar is read as one. -/
theorem scansAsNumber_of_mem (h : text ∈ Rule.number.language) : ScansAsNumber text := by
  have hpieces : pieces text = [.token .number text] := pieces_of_makes (.number h)
  refine ⟨?_, Token.startAt {} .number text, ?_, rfl⟩
  · rw [Scan.ofText_eq_ofPieces, hpieces]
    rfl
  · rw [proper_tokens, hpieces]
    rfl

/-- An exponent is no part of a number: it starts a word. -/
theorem Exponential.not_scansAsNumber (h : Exponential text) : ¬ ScansAsNumber text := by
  obtain ⟨coefficient, sign, power, hmem, -, -, rfl⟩ := h
  generalize sign ++ power = rest
  have hends : (Piece.token .number coefficient).EndsAt ('e' :: rest) := by
    constructor
    · intro d hd
      rw [← Option.some.inj hd]
      rfl
    · intro _ hpoint
      cases hpoint
  have hcoefficient : pieces (coefficient ++ 'e' :: rest) =
      .token .number coefficient :: pieces ('e' :: rest) :=
    pieces_text_append
      ((Piece.first?_text_append_iff (first?_of_makes (.number hmem)) ('e' :: rest)).2 hends)
  rintro ⟨-, t, ht, -⟩
  rw [proper_tokens, hcoefficient, tokensFrom_cons, pieces_cons, tokensFrom_cons,
    Piece.first_of_isLetter (by rfl)] at ht
  cases ht

/-- It starts with a letter that no number of the grammar has. -/
theorem Exponential.not_pointed (h : Exponential text) : ¬ Pointed text := by
  obtain ⟨coefficient, sign, power, -, -, -, rfl⟩ := h
  intro hpointed
  have he : 'e' ∈ coefficient ++ 'e' :: (sign ++ power) :=
    List.mem_append_right _ List.mem_cons_self
  rcases Rule.isDigit_or_eq_of_mem_number hpointed.mem_number he with hdigit | hpoint
  · cases hdigit
  · cases hpoint

namespace Binary64

variable {x : Binary64}

/-- The text of a number without a sign. -/
theorem toList_write (l : Layout) (hnegative : x.isNegative = false) :
    (l.write x).toList =
      if x.significand = 0 then ['0', '.', '0']
      else if l.least ≤ (shortest l.tie x).exponent ∧ (shortest l.tie x).exponent ≤ l.greatest then
        Layout.plain (shortest l.tie x)
      else l.scientific (shortest l.tie x) := by
  simp only [Layout.write, hnegative, Bool.false_eq_true, if_false, String.toList_append,
    String.toList_ofList]
  rfl

/-- The text of a finite number without a sign has a point or an exponent, as its value says. -/
theorem write_numbers (hfinite : x.isFinite = true) (hnegative : x.isNegative = false) :
    x.Moderate ∧ Pointed (Literal.numbers.write x).toList ∨
      ¬ x.Moderate ∧ Exponential (Literal.numbers.write x).toList := by
  rw [toList_write _ hnegative]
  split
  · rename_i hzero
    exact Or.inl ⟨⟨hfinite, Or.inl (magnitude_eq_zero_iff.2 hzero)⟩,
      ['0'], ['0'], isDigits_zero, isDigits_zero, rfl⟩
  · rename_i hne
    have hmoderate := moderate_iff hfinite hne Literal.numbers.tie
    obtain ⟨hdigits, hhead⟩ := isDigits_shortest hne Literal.numbers.tie
    split
    · rename_i hrange
      obtain ⟨whole, part, hplain, hwhole, hpart⟩ := Layout.exists_plain_eq hdigits hhead
      exact Or.inl ⟨hmoderate.2 hrange, whole, part, hwhole.1, hpart, hplain⟩
    · rename_i hrange
      obtain ⟨first, part, hscientific, hwhole, hpart⟩ :=
        Layout.exists_scientific_eq Literal.numbers hdigits hhead
      refine Or.inr ⟨fun h => hrange (hmoderate.1 h), [first] ++ part, _, _, ?_, ?_,
        isDigits_toDigits _, hscientific⟩
      · refine Rule.mem_number_iff.2 ⟨[first], hwhole.1.1, hwhole.1.2, ?_⟩
        obtain rfl | ⟨digits, rfl, hdigits⟩ := hpart
        · exact Or.inl rfl
        · exact Or.inr ⟨digits, hdigits.1, hdigits.2, rfl⟩
      · split
        · exact Or.inr rfl
        · exact Or.inl rfl

/-- What a text shows of a number that is not negative. -/
structure ShownAs (x : Binary64) (text : List Char) : Prop where
  /-- There is a point with digits on both sides if the number is moderate, and only then. -/
  pointed_iff : Pointed text ↔ x.Moderate
  /-- Only then the text is a number again. -/
  scansAsNumber_iff : ScansAsNumber text ↔ x.Moderate
  /-- Every other finite number is shown with an exponent. -/
  exponential : x.isFinite = true → ¬ x.Moderate → Exponential text
  /-- Infinity is shown as a word. -/
  eq_of_isInfinite : x.isInfinite = true → text = ['i', 'n', 'f']

theorem shownAs_of_moderate (h : x.Moderate) (hpointed : Pointed text) : x.ShownAs text where
  pointed_iff := iff_of_true hpointed h
  scansAsNumber_iff := iff_of_true (scansAsNumber_of_mem hpointed.mem_number) h
  exponential := fun _ hno => absurd h hno
  eq_of_isInfinite := fun hinfinite => absurd hinfinite (not_isInfinite_of_isFinite h.1)

theorem shownAs_of_exponential (hfinite : x.isFinite = true) (h : ¬ x.Moderate)
    (hexponential : Exponential text) : x.ShownAs text where
  pointed_iff := iff_of_false hexponential.not_pointed h
  scansAsNumber_iff := iff_of_false hexponential.not_scansAsNumber h
  exponential := fun _ _ => hexponential
  eq_of_isInfinite := fun hinfinite => absurd hinfinite (not_isInfinite_of_isFinite hfinite)

/-- A word is no number. -/
theorem not_scansAsNumber_inf : ¬ ScansAsNumber ['i', 'n', 'f'] := by
  rintro ⟨-, t, ht, hkind⟩
  have hword : proper (Scan.ofText ['i', 'n', 'f']).tokens =
      [Token.startAt {} .identifier ['i', 'n', 'f']] := by decide +kernel
  rw [hword] at ht
  obtain rfl := (List.cons.inj ht).1
  cases hkind

theorem shownAs_inf (h : x.isInfinite = true) : x.ShownAs ['i', 'n', 'f'] := by
  have hno : ¬ x.Moderate := fun hmoderate => not_isInfinite_of_isFinite hmoderate.1 h
  have hpointed : ¬ Pointed ['i', 'n', 'f'] := fun hpointed =>
    not_scansAsNumber_inf (scansAsNumber_of_mem hpointed.mem_number)
  exact
    { pointed_iff := iff_of_false hpointed hno
      scansAsNumber_iff := iff_of_false not_scansAsNumber_inf hno
      exponential := fun hfinite => absurd h (not_isInfinite_of_isFinite hfinite)
      eq_of_isInfinite := fun _ => rfl }

/-- Every number that is not negative is shown so. -/
theorem shownAs_numberText (hnan : x.isNaN = false) (hnegative : x.isNegative = false) :
    x.ShownAs (Literal.numberText x).toList := by
  unfold Literal.numberText
  cases hinfinite : x.isInfinite with
  | true =>
    simp only [hnan, hnegative, Bool.false_eq_true, if_false, if_true]
    exact shownAs_inf hinfinite
  | false =>
    simp only [hnan, Bool.false_eq_true, if_false]
    have hfinite : x.isFinite = true := by
      rw [isFinite_eq_not, hnan, hinfinite]
      rfl
    rcases write_numbers hfinite hnegative with ⟨h, hpointed⟩ | ⟨h, hexponential⟩
    · exact shownAs_of_moderate h hpointed
    · exact shownAs_of_exponential hfinite h hexponential

end Binary64

/-- A number literal is shown with a point and digits on both sides of it, and so that its text is
a number again, if and only if its value is zero or from `1e-4` up to below `1e16`. -/
theorem shown_number (source : List Char) :
    ∀ t ∈ (Scan.ofText source).tokens, t.kind = .number →
      ∃ x, t.literal = some (.number x) ∧ x.ShownAs (Literal.number x).shown.toList := by
  intro t ht hkind
  obtain ⟨place, kind, text, r, hr, rfl⟩ | ⟨place, rfl⟩ := Token.cases_of_mem ht
  · obtain ⟨x, -, hliteral, hnan, hnegative⟩ :=
      (Token.exact_startAt hr place).number_of_number hkind
    exact ⟨x, hliteral, Binary64.shownAs_numberText hnan hnegative⟩
  · cases hkind

/-- A number of seventeen digits is shown with an exponent and without a point. -/
theorem shown_number_large :
    let source := "10000000000000000".toList
    let t : Token := ⟨.number, "10000000000000000", some (.number ⟨0x4341C37937E08000⟩), 1,
      ⟨0, 17, 1, 1⟩⟩
    t ∈ (Scan.ofText source).tokens ∧ t.literal.map Literal.shown = some "1e16" ∧
      ¬ Pointed "1e16".toList ∧ ¬ ScansAsNumber "1e16".toList := by
  intro source t
  have hexponential : Exponential "1e16".toList :=
    ⟨['1'], [], ['1', '6'],
      Rule.mem_number_iff.2 ⟨['1'], List.cons_ne_nil _ _, List.all_eq_true.1 rfl, Or.inl rfl⟩,
      Or.inl rfl, ⟨List.cons_ne_nil _ _, List.all_eq_true.1 rfl⟩, rfl⟩
  exact ⟨by decide +kernel, by decide +kernel, hexponential.not_pointed,
    hexponential.not_scansAsNumber⟩

/-- The least number with a point, written with more digits than are shown. -/
theorem shown_number_least :
    let source := "0.00010".toList
    let x : Binary64 := ⟨0x3F1A36E2EB1C432D⟩
    let t : Token := ⟨.number, "0.00010", some (.number x), 1, ⟨0, 7, 1, 1⟩⟩
    t ∈ (Scan.ofText source).tokens ∧ t.kind = .number ∧
      (Literal.number x).shown = "0.0001" ∧ Pointed "0.0001".toList ∧ x.Moderate := by
  intro source x t
  have ht : t ∈ (Scan.ofText source).tokens := by decide +kernel
  have hshown : (Literal.number x).shown = "0.0001" := by decide +kernel
  obtain ⟨y, hy, hshows⟩ := shown_number source t ht rfl
  obtain rfl : x = y := Literal.number.inj (Option.some.inj hy)
  rw [hshown] at hshows
  have hpointed : Pointed "0.0001".toList :=
    ⟨['0'], ['0', '0', '0', '1'], isDigits_zero,
      ⟨List.cons_ne_nil _ _, List.all_eq_true.1 rfl⟩, rfl⟩
  exact ⟨ht, rfl, hshown, hpointed, hshows.pointed_iff.1 hpointed⟩

end LoxTokens
