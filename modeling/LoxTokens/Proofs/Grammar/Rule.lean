import Mathlib.Computability.Language
import LoxTokens.Piece

/-!
# The lexical grammar

Every rule of the grammar is a language, built from single characters by union, concatenation and
repetition. No reader is used to say what a rule matches. The membership lemmas give the shape of
the texts of each rule, and no text matches two rules.
-/

namespace LoxTokens

open scoped Computability

/-- A rule of the lexical grammar. -/
inductive Rule where
  /-- An operator or a punctuation mark. -/
  | symbol (s : Symbol)
  /-- Digits, and possibly a point and more digits. -/
  | number
  /-- A letter or an underscore, and letters, underscores and digits. -/
  | word
  /-- Anything without a quote between two quotes. -/
  | string
  /-- Two slashes and the rest of the line. -/
  | comment
  /-- A space, a carriage return or a tab. -/
  | blank
  /-- The end of a line. -/
  | newline

namespace Rule

/-- The texts of one character that has a property. -/
def one (p : Char → Prop) : Language Char := {text | ∃ c, p c ∧ text = [c]}

/-- The ten digits. -/
def digit : Language Char := one fun c => '0' ≤ c ∧ c ≤ '9'

/-- The letters of both cases and the underscore. -/
def letter : Language Char :=
  one fun c => ('A' ≤ c ∧ c ≤ 'Z') ∨ ('a' ≤ c ∧ c ≤ 'z') ∨ c = '_'

/-- The texts that match a rule. -/
def language : Rule → Language Char
  | symbol s => {s.spelling}
  | number => digit * digit∗ * (1 + {['.']} * (digit * digit∗))
  | word => letter * (letter + digit)∗
  | string => {['"']} * (one (· ≠ '"'))∗ * {['"']}
  | comment => {['/', '/']} * (one (· ≠ '\n'))∗
  | blank => one fun c => c = ' ' ∨ c = '\r' ∨ c = '\t'
  | newline => {['\n']}

theorem mem_one_iff {p : Char → Prop} {text : List Char} :
    text ∈ one p ↔ ∃ c, p c ∧ text = [c] := Iff.rfl

/-- Repetition of a single character gives every text of such characters. -/
theorem mem_star_one_iff {p : Char → Prop} {text : List Char} :
    text ∈ (one p)∗ ↔ ∀ c ∈ text, p c := by
  rw [Language.mem_kstar]
  constructor
  · rintro ⟨parts, rfl, hparts⟩ c hc
    obtain ⟨part, hpart, hc⟩ := List.mem_flatten.1 hc
    obtain ⟨d, hd, rfl⟩ := hparts part hpart
    rwa [List.mem_singleton.1 hc]
  · intro h
    refine ⟨text.map fun c => [c], ?_, ?_⟩
    · rw [← List.flatMap_def, List.flatMap_singleton']
    · intro part hpart
      obtain ⟨c, hc, rfl⟩ := List.mem_map.1 hpart
      exact ⟨c, h c hc, rfl⟩

theorem mem_digit_iff {text : List Char} :
    text ∈ digit ↔ ∃ c, Text.isDigit c = true ∧ text = [c] := by
  simp only [digit, mem_one_iff, Text.isDigit_iff]

theorem mem_letter_iff {text : List Char} :
    text ∈ letter ↔ ∃ c, Text.isLetter c = true ∧ text = [c] := by
  simp only [letter, mem_one_iff, Text.isLetter_iff]

/-- A row of digits that is not empty. -/
theorem mem_digits_iff {text : List Char} :
    text ∈ digit * digit∗ ↔ text ≠ [] ∧ ∀ c ∈ text, Text.isDigit c = true := by
  have hd : digit = one fun c => Text.isDigit c = true := by
    ext other
    exact mem_digit_iff
  rw [hd, Language.mem_mul]
  constructor
  · rintro ⟨_, ⟨c, hc, rfl⟩, tail, htail, rfl⟩
    refine ⟨List.cons_ne_nil c tail, fun d hm => ?_⟩
    rcases List.mem_cons.1 hm with rfl | hm
    · exact hc
    · exact mem_star_one_iff.1 htail d hm
  · rintro ⟨hne, hall⟩
    obtain ⟨c, tail, rfl⟩ := List.exists_cons_of_ne_nil hne
    refine ⟨[c], ⟨c, hall c List.mem_cons_self, rfl⟩, tail, mem_star_one_iff.2 fun d hm => ?_, rfl⟩
    exact hall d (List.mem_cons_of_mem c hm)

theorem mem_number_iff {text : List Char} :
    text ∈ language number ↔
      ∃ whole, whole ≠ [] ∧ (∀ c ∈ whole, Text.isDigit c = true) ∧
        (text = whole ∨ ∃ part, part ≠ [] ∧ (∀ c ∈ part, Text.isDigit c = true) ∧
          text = whole ++ '.' :: part) := by
  rw [language, Language.mem_mul]
  constructor
  · rintro ⟨whole, hw, tail, htail, rfl⟩
    obtain ⟨hne, hall⟩ := mem_digits_iff.1 hw
    refine ⟨whole, hne, hall, ?_⟩
    rcases (Language.mem_add _ _ _).1 htail with hnil | hpart
    · rw [(Language.mem_one tail).1 hnil, List.append_nil]
      exact Or.inl rfl
    · obtain ⟨_, rfl, part, hp, rfl⟩ := Language.mem_mul.1 hpart
      obtain ⟨hpne, hpall⟩ := mem_digits_iff.1 hp
      exact Or.inr ⟨part, hpne, hpall, rfl⟩
  · rintro ⟨whole, hne, hall, rfl | ⟨part, hpne, hpall, rfl⟩⟩
    · exact ⟨text, mem_digits_iff.2 ⟨hne, hall⟩, [], Or.inl rfl, List.append_nil text⟩
    · refine ⟨whole, mem_digits_iff.2 ⟨hne, hall⟩, '.' :: part, Or.inr ?_, rfl⟩
      exact ⟨['.'], rfl, part, mem_digits_iff.2 ⟨hpne, hpall⟩, rfl⟩

/-- A number has nothing but digits and a point. -/
theorem isDigit_or_eq_of_mem_number {text : List Char} (h : text ∈ language number) {c : Char}
    (hc : c ∈ text) : Text.isDigit c = true ∨ c = '.' := by
  obtain ⟨whole, -, hwhole, rfl | ⟨part, -, hpart, rfl⟩⟩ := mem_number_iff.1 h
  · exact Or.inl (hwhole c hc)
  · rcases List.mem_append.1 hc with hc | hc
    · exact Or.inl (hwhole c hc)
    · rcases List.mem_cons.1 hc with hc | hc
      · exact Or.inr hc
      · exact Or.inl (hpart c hc)

theorem mem_word_iff {text : List Char} :
    text ∈ language word ↔
      ∃ c cs, text = c :: cs ∧ Text.isLetter c = true ∧ ∀ d ∈ cs, Text.isWordChar d = true := by
  have hw : letter + digit = one fun c => Text.isWordChar c = true := by
    ext other
    rw [Language.mem_add, mem_letter_iff, mem_digit_iff, mem_one_iff]
    simp only [Text.isWordChar_iff, or_and_right, exists_or]
  rw [language, hw, Language.mem_mul]
  constructor
  · rintro ⟨_, hl, cs, hcs, rfl⟩
    obtain ⟨c, hc, rfl⟩ := mem_letter_iff.1 hl
    exact ⟨c, cs, rfl, hc, mem_star_one_iff.1 hcs⟩
  · rintro ⟨c, cs, rfl, hc, hcs⟩
    exact ⟨[c], mem_letter_iff.2 ⟨c, hc, rfl⟩, cs, mem_star_one_iff.2 hcs, rfl⟩

theorem mem_string_iff {text : List Char} :
    text ∈ language string ↔ ∃ body, '"' ∉ body ∧ text = '"' :: body ++ ['"'] := by
  rw [language, Language.mem_mul]
  constructor
  · rintro ⟨_, hopen, _, rfl, rfl⟩
    obtain ⟨_, rfl, body, hbody, rfl⟩ := Language.mem_mul.1 hopen
    exact ⟨body, fun hq => mem_star_one_iff.1 hbody _ hq rfl, rfl⟩
  · rintro ⟨body, hbody, rfl⟩
    have hb : body ∈ (one (· ≠ '"'))∗ :=
      mem_star_one_iff.2 fun c hc hq => hbody (hq ▸ hc)
    exact ⟨'"' :: body, Language.mem_mul.2 ⟨['"'], rfl, body, hb, rfl⟩, ['"'], rfl, rfl⟩

theorem mem_comment_iff {text : List Char} :
    text ∈ language comment ↔ ∃ body, '\n' ∉ body ∧ text = '/' :: '/' :: body := by
  rw [language, Language.mem_mul]
  constructor
  · rintro ⟨_, rfl, body, hbody, rfl⟩
    exact ⟨body, fun hn => mem_star_one_iff.1 hbody _ hn rfl, rfl⟩
  · rintro ⟨body, hbody, rfl⟩
    exact ⟨['/', '/'], rfl, body, mem_star_one_iff.2 fun c hc hn => hbody (hn ▸ hc), rfl⟩

/-- The rule that a text matches if it matches one at all. -/
def ofText? : List Char → Option Rule
  | [] => none
  | c :: cs =>
    if Text.isDigit c then some number
    else if Text.isLetter c then some word
    else if c = '"' then some string
    else if c = '\n' then some newline
    else if Text.isBlank c then some blank
    else if c = '/' ∧ cs.head? = some '/' then some comment
    else (Symbol.ofSpelling? (c :: cs)).map symbol

theorem ofText?_of_mem {r : Rule} {text : List Char} (h : text ∈ r.language) :
    ofText? text = some r := by
  cases r with
  | number =>
    obtain ⟨whole, hne, hall, ht⟩ := mem_number_iff.1 h
    obtain ⟨c, tail, rfl⟩ := List.exists_cons_of_ne_nil hne
    have hc := hall c List.mem_cons_self
    rcases ht with rfl | ⟨part, -, -, rfl⟩ <;> exact if_pos hc
  | word =>
    obtain ⟨c, cs, rfl, hc, -⟩ := mem_word_iff.1 h
    have hd : ¬ Text.isDigit c = true := by
      rw [Text.isDigit_of_isLetter hc]
      exact Bool.false_ne_true
    rw [ofText?, if_neg hd, if_pos hc]
  | string =>
    obtain ⟨body, -, rfl⟩ := mem_string_iff.1 h
    rfl
  | comment =>
    obtain ⟨body, -, rfl⟩ := mem_comment_iff.1 h
    rfl
  | blank =>
    obtain ⟨c, hc, rfl⟩ := h
    rcases hc with rfl | rfl | rfl <;> rfl
  | newline =>
    obtain rfl : text = ['\n'] := h
    rfl
  | symbol s =>
    obtain rfl : text = s.spelling := h
    cases s <;> rfl

/-- No text matches two rules. -/
theorem eq_of_mem {r s : Rule} {text : List Char} (hr : text ∈ r.language)
    (hs : text ∈ s.language) : r = s :=
  Option.some.inj ((ofText?_of_mem hr).symm.trans (ofText?_of_mem hs))

/-- No rule matches the empty text. -/
theorem ne_nil_of_mem {r : Rule} {text : List Char} (h : text ∈ r.language) : text ≠ [] := by
  rintro rfl
  cases ofText?_of_mem h

end Rule

end LoxTokens
