import Mathlib.Data.Bool.AllAny
import LoxTokens.Toml.Moment
import LoxTokens.Toml.Number
import LoxTokens.Proofs.Decimals
import LoxTokens.Proofs.Numerals
import LoxTokens.Proofs.Toml.Grammar

/-!
# Whole numbers of settings files are read

A decimal number is read as the number it is a text of, whatever its sign and however its digits are
grouped (`decimal_append`). Dates, times of day and numbers to other bases are tried before it, but
have something other than a digit where it has none (`moment_of_integerText`, `number_append`).
-/

namespace LoxTokens.Toml

open Reader

variable {n : Nat} {i : Int} {text cs rest : List Char}

/-- If a text starts with anything, then with one of these characters. -/
def StartsIn (starts text : List Char) : Prop := ∀ c ∈ text.head?, c ∈ starts

/-- The characters that may stand behind a value. -/
def valueEnds : List Char := [' ', '\t', '#', '\n', '\r']

/-- What is true of all these characters is true of what the text starts with. -/
theorem StartsIn.forall {starts : List Char} (h : StartsIn starts text) {P : Char → Prop}
    [DecidablePred P] (hP : (starts.all fun c => P c) = true) : ∀ c ∈ text.head?, P c :=
  fun c hc => List.all_iff_forall_prop.1 hP c (h c hc)

/-! Digits. -/

/-- A digit, or an underscore and a digit. -/
theorem digitPart_append {p : Char × List Char} (hdigit : p.1.isDigit = true)
    (hp : p.2 = [p.1] ∨ p.2 = ['_', p.1]) (rest : List Char) :
    (one Char.isDigit <|> (char '_' *> one Char.isDigit)) (p.2 ++ rest) = some (p.1, rest) := by
  rcases hp with hp | hp
  · rw [hp]
    exact orElse_of_eq (one_cons hdigit) _
  · rw [hp]
    exact (seqRight_of_eq (char_cons '_') _).trans (one_cons hdigit)

/-- The digits of a number are read however they are grouped. -/
theorem wholeDigits_append (h : DigitsText n text) (hrest : StartsIn valueEnds rest) :
    wholeDigits (text ++ rest) = some (Nat.toDigits 10 n, rest) := by
  obtain ⟨first, parts, hparts, hdigits, rfl⟩ := h
  obtain ⟨⟨-, hall⟩, hwhole⟩ := isWhole_toDigits n
  rw [hdigits] at hall hwhole ⊢
  have hfirst := hall first List.mem_cons_self
  rcases hwhole with hzero | hhead
  · -- Nothing stands behind a zero.
    obtain ⟨rfl, hnil⟩ := List.cons.inj hzero
    obtain rfl := List.map_eq_nil_iff.1 hnil
    rfl
  · have hne : ∀ p ∈ parts, p.2 ≠ [] := by
      intro p hp
      rcases hparts p hp with h | h <;> simp [h]
    have hstop : (one Char.isDigit <|> (char '_' *> one Char.isDigit)) rest = none := by
      have hdigit : one Char.isDigit rest = none := one_of_not (hrest.forall (by decide))
      have hscore : char '_' rest = none := one_of_not (hrest.forall (by decide))
      rw [orElse_of_none hdigit, seqRight_of_none hscore]
    have hmore : many (one Char.isDigit <|> (char '_' *> one Char.isDigit))
        (parts.flatMap Prod.snd ++ rest) = some (parts.map Prod.fst, rest) :=
      many_flatMap (fun _ => True) hne hstop trivial (fun _ _ _ => trivial) fun p hp tail _ =>
        digitPart_append (hall p.1 (List.mem_cons_of_mem _ (List.mem_map_of_mem hp)))
          (hparts p hp) tail
    have hnonzero : (first.isDigit && first != '0') = true := by
      rw [hfirst, Bool.true_and, bne_iff_ne]
      exact fun hzero => hhead (congrArg some hzero)
    exact orElse_of_eq ((bind_of_eq (one_cons hnonzero) _).trans (bind_of_eq hmore _)) _

/-- The characters of digits. -/
theorem DigitsText.forall_mem (h : DigitsText n text) :
    ∀ c ∈ text, c.isDigit = true ∨ c = '_' := by
  obtain ⟨first, parts, hparts, hdigits, rfl⟩ := h
  have hall := (isDigits_toDigits n).2
  rw [hdigits] at hall
  intro c hc
  rcases List.mem_cons.1 hc with rfl | hc
  · exact Or.inl (hall c List.mem_cons_self)
  · obtain ⟨p, hp, hc⟩ := List.mem_flatMap.1 hc
    have hdigit := hall p.1 (List.mem_cons_of_mem _ (List.mem_map_of_mem hp))
    rcases hparts p hp with h | h <;> rw [h] at hc
    · exact Or.inl (List.mem_singleton.1 hc ▸ hdigit)
    · rcases List.mem_cons.1 hc with rfl | hc
      · exact Or.inr rfl
      · exact Or.inl (List.mem_singleton.1 hc ▸ hdigit)

theorem DigitsText.exists_cons (h : DigitsText n text) :
    ∃ c more, text = c :: more ∧ c.isDigit = true := by
  obtain ⟨first, parts, hparts, hdigits, rfl⟩ := h
  have hall := (isDigits_toDigits n).2
  rw [hdigits] at hall
  exact ⟨first, _, rfl, hall first List.mem_cons_self⟩

/-- A number has a sign, which is read first, and digits. -/
theorem IntegerText.exists_sign (h : IntegerText i text) :
    ∃ (negative : Bool) (n : Nat) (digits : List Char), DigitsText n digits ∧
      i = (if negative then -(n : Int) else n) ∧
      ∀ rest, sign (text ++ rest) = some (negative, digits ++ rest) := by
  cases h with
  | @unsigned n _ h =>
    refine ⟨false, n, text, h, rfl, fun rest => ?_⟩
    obtain ⟨c, more, rfl, hc⟩ := h.exists_cons
    have hminus : char '-' ((c :: more) ++ rest) = none := char_of_ne (Text.ne_of_test hc rfl)
    have hplus : char '+' ((c :: more) ++ rest) = none := char_of_ne (Text.ne_of_test hc rfl)
    rw [sign, orElse_of_none (seqRight_of_none hminus _), orElse_of_none (seqRight_of_none hplus _)]
    rfl
  | plus h => exact ⟨false, _, _, h, rfl, fun rest => rfl⟩
  | minus h => exact ⟨true, _, _, h, rfl, fun rest => rfl⟩

theorem inRange_of_le (hleast : Int64.minValue.toInt ≤ i)
    (hgreatest : i ≤ Int64.maxValue.toInt) : inRange i = true := by
  rw [Int64.toInt_minValue] at hleast
  rw [Int64.toInt_maxValue] at hgreatest
  rw [inRange, Bool.and_eq_true, decide_eq_true_eq, decide_eq_true_eq]
  omega

/-- A decimal number is read as what it is a text of. -/
theorem decimal_append (h : IntegerText i text) (hleast : Int64.minValue.toInt ≤ i)
    (hgreatest : i ≤ Int64.maxValue.toInt) (hrest : StartsIn valueEnds rest) :
    decimal (text ++ rest) = some (.integer i, rest) := by
  obtain ⟨negative, n, digits, hdigits, hi, hsign⟩ := h.exists_sign
  have hpoint : fraction rest = none :=
    seqRight_of_none (one_of_not (hrest.forall (by decide))) _
  have hpower : exponent rest = none :=
    bind_of_none (discard_of_none (one_of_not (hrest.forall (by decide)))) _
  rw [decimal, bind_of_eq (hsign rest), bind_of_eq (wholeDigits_append hdigits hrest),
    bind_of_eq (maybe_of_none hpoint), bind_of_eq (maybe_of_none hpower), if_pos ⟨rfl, rfl⟩,
    numeralValue_toDigits (by decide) (by decide), ← hi,
    bind_of_eq (check_of_eq (inRange_of_le hleast hgreatest))]
  rfl

/-! Other forms. -/

/-- The characters of a number. -/
theorem IntegerText.forall_mem (h : IntegerText i text) :
    ∀ c ∈ text, c.isDigit = true ∨ c ∈ ['_', '+', '-'] := by
  have hdigits {n : Nat} {digits : List Char} (h : DigitsText n digits) :
      ∀ c ∈ digits, c.isDigit = true ∨ c ∈ ['_', '+', '-'] := by
    intro c hc
    refine (h.forall_mem c hc).imp_right ?_
    rintro rfl
    exact List.mem_cons_self
  cases h with
  | unsigned h => exact hdigits h
  | plus h => exact List.forall_mem_cons.2 ⟨Or.inr (by decide), hdigits h⟩
  | minus h => exact List.forall_mem_cons.2 ⟨Or.inr (by decide), hdigits h⟩

theorem IntegerText.ne_nil (h : IntegerText i text) : text ≠ [] := by
  cases h with
  | unsigned h =>
    obtain ⟨c, more, rfl, -⟩ := h.exists_cons
    exact List.cons_ne_nil c more
  | plus | minus => exact List.cons_ne_nil _ _

theorem IntegerText.head? (h : IntegerText i text) (rest : List Char) :
    ∀ c ∈ (text ++ rest).head?, c.isDigit = true ∨ c ∈ ['_', '+', '-'] :=
  forall_mem_head?_append (fun c hc => h.forall_mem c (List.mem_of_head? hc)) fun hnil =>
    absurd hnil h.ne_nil

/-- If a number has no sign, its first digits end with an underscore or with the number itself. -/
theorem IntegerText.takeWhile_eq_nil_or (h : IntegerText i text)
    (hrest : StartsIn valueEnds rest) :
    (text ++ rest).takeWhile Char.isDigit = [] ∨
      StartsIn ('_' :: valueEnds) ((text ++ rest).dropWhile Char.isDigit) := by
  cases h with
  | unsigned h =>
    refine Or.inr ?_
    have hall := h.forall_mem
    clear h
    induction text with
    | nil =>
      intro c hc
      cases rest with
      | nil => cases hc
      | cons d rest =>
        have hdigit : ∀ c ∈ (d :: rest).head?, ¬ c.isDigit = true := hrest.forall (by decide)
        rw [List.nil_append, List.dropWhile_cons_of_neg (hdigit d rfl)] at hc
        exact List.mem_cons_of_mem _ (hrest c hc)
    | cons d text ih =>
      obtain ⟨hd, hall⟩ := List.forall_mem_cons.1 hall
      by_cases hdigit : d.isDigit = true
      · rw [List.cons_append, List.dropWhile_cons_of_pos hdigit]
        exact ih hall
      · rw [List.cons_append, List.dropWhile_cons_of_neg hdigit]
        rintro c ⟨⟩
        exact (hd.resolve_left hdigit) ▸ List.mem_cons_self
  | plus | minus => exact Or.inl rfl

/-- A field of a date or time is not read, or no mark stands behind it, if none stands behind the
first digits. -/
theorem field_cases {size : Nat} (hsize : 0 < size) (least greatest : Nat) {mark : Char}
    (hmark : mark.isDigit = false)
    (h : cs.takeWhile Char.isDigit = [] ∨ ∀ c ∈ (cs.dropWhile Char.isDigit).head?, c ≠ mark) :
    field size least greatest cs = none ∨
      ∃ n rest, field size least greatest cs = some (n, rest) ∧ char mark rest = none := by
  have hrow := upTo_one Char.isDigit size cs
  have hbehind : char mark ((cs.takeWhile Char.isDigit).drop size ++ cs.dropWhile Char.isDigit) =
      none ∨ cs.takeWhile Char.isDigit = [] := by
    refine h.symm.imp_left fun hne => one_of_not ?_
    refine forall_mem_head?_append (fun c hc => ?_) fun _ c hc => beq_false_of_ne (hne c hc)
    have hdigit := List.mem_takeWhile_imp (List.mem_of_mem_drop (List.mem_of_head? hc))
    exact beq_false_of_ne (Text.ne_of_test hdigit hmark)
  generalize (cs.takeWhile Char.isDigit).drop size ++ cs.dropWhile Char.isDigit = more
    at hrow hbehind
  generalize hdigits : (cs.takeWhile Char.isDigit).take size = row at hrow
  by_cases hlength : row.length = size
  · have hcheck : check (row.length == size) more = some ((), more) :=
      check_of_eq (beq_iff_eq.2 hlength)
    cases hbounds : decide (least ≤ numeralValue 10 row) && decide (numeralValue 10 row ≤ greatest)
    · exact Or.inl ((bind_of_eq hrow _).trans
        ((bind_of_eq hcheck _).trans (bind_of_none (check_of_eq_false hbounds) _)))
    · refine Or.inr ⟨numeralValue 10 row, more, (bind_of_eq hrow _).trans
        ((bind_of_eq hcheck _).trans (bind_of_eq (check_of_eq hbounds) _)), ?_⟩
      refine hbehind.resolve_right fun hnil => ?_
      rw [hnil, List.take_nil] at hdigits
      subst hdigits
      exact absurd hlength hsize.ne
  · have hcheck : (row.length == size) = false := beq_false_of_ne hlength
    exact Or.inl ((bind_of_eq hrow _).trans (bind_of_none (check_of_eq_false hcheck) _))

theorem date_of_integerText (h : IntegerText i text) (hrest : StartsIn valueEnds rest) :
    date (text ++ rest) = none := by
  have hmark : _ ∨ ∀ c ∈ ((text ++ rest).dropWhile Char.isDigit).head?, c ≠ '-' :=
    (h.takeWhile_eq_nil_or hrest).imp_right fun hstarts => hstarts.forall (by decide)
  rcases field_cases (show 0 < 4 by decide) 0 9999 rfl hmark with hnone | ⟨n, more, hfield, hnone⟩
  · exact bind_of_none hnone _
  · exact (bind_of_eq hfield _).trans (bind_of_none (discard_of_none hnone) _)

theorem timeOfDay_of_integerText (h : IntegerText i text) (hrest : StartsIn valueEnds rest) :
    timeOfDay (text ++ rest) = none := by
  have hmark : _ ∨ ∀ c ∈ ((text ++ rest).dropWhile Char.isDigit).head?, c ≠ ':' :=
    (h.takeWhile_eq_nil_or hrest).imp_right fun hstarts => hstarts.forall (by decide)
  rcases field_cases (show 0 < 2 by decide) 0 23 rfl hmark with hnone | ⟨n, more, hfield, hnone⟩
  · exact bind_of_none (discard_of_none hnone) _
  · exact (bind_of_eq (discard_of_eq hfield) _).trans (bind_of_none (discard_of_none hnone) _)

/-- A number is no date and no time of day. -/
theorem moment_of_integerText (h : IntegerText i text) (hrest : StartsIn valueEnds rest) :
    moment (text ++ rest) = none := by
  have hdate : dateAndTime (text ++ rest) = none := bind_of_none (date_of_integerText h hrest) _
  have htime := timeOfDay_of_integerText h hrest
  exact bind_of_none (taken_of_none ((orElse_of_none hdate _).trans htime)) _

/-- Nor is it one to another base, for no letter stands behind its first digit. -/
theorem based_of_integerText (h : IntegerText i text) (hrest : StartsIn valueEnds rest)
    {mark : String} {letter : Char} (hmark : mark.toList = ['0', letter])
    (hletter : letter.isDigit = false ∧ letter ∉ ['_', '+', '-'] ∧ letter ∉ valueEnds)
    (base : Nat) : based mark base (text ++ rest) = none := by
  obtain ⟨first, digits, rfl⟩ := List.exists_cons_of_ne_nil h.ne_nil
  have hall : ∀ c ∈ (digits ++ rest).head?, c ≠ letter := by
    refine forall_mem_head?_append (fun c hc => ?_) fun _ c hc => ?_
    · rcases h.forall_mem c (List.mem_cons_of_mem _ (List.mem_of_head? hc)) with hdigit | hother
      · exact Text.ne_of_test hdigit hletter.1
      · exact fun heq => hletter.2.1 (heq ▸ hother)
    · exact fun heq => hletter.2.2 (heq ▸ hrest c hc)
  refine bind_of_none (word_eq_none ?_) _
  rw [hmark]
  rintro ⟨more, hmore⟩
  have hsecond : letter :: more = digits ++ rest := (List.cons.inj hmore).2
  rw [← hsecond] at hall
  exact hall letter rfl rfl

/-- A decimal number is a number. -/
theorem number_append (h : IntegerText i text) (hleast : Int64.minValue.toInt ≤ i)
    (hgreatest : i ≤ Int64.maxValue.toInt) (hrest : StartsIn valueEnds rest) :
    number (text ++ rest) = some (.integer i, rest) := by
  rw [number, orElse_of_none (based_of_integerText h hrest rfl (by decide) 16),
    orElse_of_none (based_of_integerText h hrest rfl (by decide) 8),
    orElse_of_none (based_of_integerText h hrest rfl (by decide) 2)]
  exact orElse_of_eq (decimal_append h hleast hgreatest hrest) _

end LoxTokens.Toml
