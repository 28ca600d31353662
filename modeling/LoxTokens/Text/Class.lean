/-!
# Character classes

The alphabet of the language is ASCII. Every other character belongs to no class, and so can
stand only inside a comment or a string.
-/

namespace LoxTokens.Text

/-- Letters and the underscore start a word. -/
def isLetter (c : Char) : Bool := c.isAlpha || c == '_'

/-- The ten digits. -/
def isDigit (c : Char) : Bool := c.isDigit

/-- Letters and digits continue a word. -/
def isWordChar (c : Char) : Bool := isLetter c || isDigit c

/-- Blanks separate lexemes within a line: a carriage return is one, a newline is not. -/
def isBlank (c : Char) : Bool := c == ' ' || c == '\r' || c == '\t'

/-- A newline or a blank. -/
def isSpace (c : Char) : Bool := c == '\n' || isBlank c

theorem isDigit_iff {c : Char} : isDigit c = true ↔ '0' ≤ c ∧ c ≤ '9' := by
  simp only [isDigit, Char.isDigit, Bool.and_eq_true, decide_eq_true_eq, Char.le_def, ge_iff_le]

theorem isLetter_iff {c : Char} :
    isLetter c = true ↔ ('A' ≤ c ∧ c ≤ 'Z') ∨ ('a' ≤ c ∧ c ≤ 'z') ∨ c = '_' := by
  have hupper : c.isUpper = true ↔ 'A' ≤ c ∧ c ≤ 'Z' := decide_eq_true_iff
  have hlower : c.isLower = true ↔ 'a' ≤ c ∧ c ≤ 'z' :=
    (Bool.and_eq_true_iff ..).trans (and_congr decide_eq_true_iff decide_eq_true_iff)
  have halpha : c.isAlpha = (c.isUpper || c.isLower) := rfl
  rw [isLetter, halpha, Bool.or_eq_true, Bool.or_eq_true, hupper, hlower, beq_iff_eq, or_assoc]

theorem isSpace_iff {c : Char} :
    isSpace c = true ↔ c = '\n' ∨ c = ' ' ∨ c = '\r' ∨ c = '\t' := by
  simp only [isSpace, isBlank, Bool.or_eq_true, beq_iff_eq, or_assoc]

theorem isWordChar_iff {c : Char} :
    isWordChar c = true ↔ isLetter c = true ∨ isDigit c = true := by
  simp only [isWordChar, Bool.or_eq_true]

/-- Two characters differ if a test tells them apart. -/
theorem ne_of_test {p : Char → Bool} {c d : Char} (hc : p c = true) (hd : p d = false) :
    c ≠ d := by
  rintro rfl
  rw [hc] at hd
  cases hd

/-- No character belongs to two classes. -/
theorem isDigit_of_isLetter {c : Char} (h : isLetter c = true) : isDigit c = false := by
  refine Bool.eq_false_iff.2 fun hd => ?_
  obtain ⟨-, h9⟩ := isDigit_iff.1 hd
  rcases isLetter_iff.1 h with ⟨hA, -⟩ | ⟨ha, -⟩ | rfl
  · exact absurd (Char.le_trans hA h9) (by decide)
  · exact absurd (Char.le_trans ha h9) (by decide)
  · exact absurd h9 (by decide)

private theorem isSpace_of_test {p : Char → Bool} (hn : p '\n' = false) (hs : p ' ' = false)
    (hr : p '\r' = false) (ht : p '\t' = false) {c : Char} (h : p c = true) :
    isSpace c = false := by
  refine Bool.eq_false_iff.2 fun hc => ?_
  rcases isSpace_iff.1 hc with hc | hc | hc | hc
  · exact ne_of_test h hn hc
  · exact ne_of_test h hs hc
  · exact ne_of_test h hr hc
  · exact ne_of_test h ht hc

theorem isSpace_of_isDigit {c : Char} (h : isDigit c = true) : isSpace c = false :=
  isSpace_of_test rfl rfl rfl rfl h

theorem isSpace_of_isLetter {c : Char} (h : isLetter c = true) : isSpace c = false :=
  isSpace_of_test rfl rfl rfl rfl h

theorem isWordChar_of_isSpace {c : Char} (h : isSpace c = true) : isWordChar c = false := by
  rcases isSpace_iff.1 h with rfl | rfl | rfl | rfl <;> rfl

theorem isDigit_of_isSpace {c : Char} (h : isSpace c = true) : isDigit c = false := by
  rcases isSpace_iff.1 h with rfl | rfl | rfl | rfl <;> rfl

end LoxTokens.Text
