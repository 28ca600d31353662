/-!
# Symbols

Operators and punctuation, each with its one spelling. Where one spelling starts another, the
longer one is read.
-/

namespace LoxTokens

/-- An operator or a punctuation mark. -/
inductive Symbol where
  | leftParen | rightParen | leftBrace | rightBrace
  | comma | dot | minus | plus | semicolon | slash | star
  | bang | bangEqual | equal | equalEqual
  | greater | greaterEqual | less | lessEqual
  deriving DecidableEq, Repr

namespace Symbol

/-- Every symbol. -/
def all : List Symbol :=
  [.leftParen, .rightParen, .leftBrace, .rightBrace, .comma, .dot, .minus, .plus, .semicolon,
   .slash, .star, .bang, .bangEqual, .equal, .equalEqual, .greater, .greaterEqual, .less,
   .lessEqual]

/-- The characters of a symbol. -/
def spelling : Symbol → List Char
  | .leftParen => ['(']
  | .rightParen => [')']
  | .leftBrace => ['\x7b']
  | .rightBrace => ['\x7d']
  | .comma => [',']
  | .dot => ['.']
  | .minus => ['-']
  | .plus => ['+']
  | .semicolon => [';']
  | .slash => ['/']
  | .star => ['*']
  | .bang => ['!']
  | .bangEqual => ['!', '=']
  | .equal => ['=']
  | .equalEqual => ['=', '=']
  | .greater => ['>']
  | .greaterEqual => ['>', '=']
  | .less => ['<']
  | .lessEqual => ['<', '=']

/-- The tag of a symbol. -/
def name : Symbol → String
  | .leftParen => "LEFT_PAREN"
  | .rightParen => "RIGHT_PAREN"
  | .leftBrace => "LEFT_BRACE"
  | .rightBrace => "RIGHT_BRACE"
  | .comma => "COMMA"
  | .dot => "DOT"
  | .minus => "MINUS"
  | .plus => "PLUS"
  | .semicolon => "SEMICOLON"
  | .slash => "SLASH"
  | .star => "STAR"
  | .bang => "BANG"
  | .bangEqual => "BANG_EQUAL"
  | .equal => "EQUAL"
  | .equalEqual => "EQUAL_EQUAL"
  | .greater => "GREATER"
  | .greaterEqual => "GREATER_EQUAL"
  | .less => "LESS"
  | .lessEqual => "LESS_EQUAL"

/-- The symbol with a spelling. -/
def ofSpelling? (text : List Char) : Option Symbol := all.find? (·.spelling == text)

theorem spelling_of_ofSpelling? {text : List Char} {s : Symbol}
    (h : ofSpelling? text = some s) : s.spelling = text := by
  simpa using List.find?_some h

@[simp] theorem ofSpelling?_spelling (s : Symbol) : ofSpelling? s.spelling = some s := by
  cases s <;> rfl

theorem ofSpelling?_eq_some_iff {text : List Char} {s : Symbol} :
    ofSpelling? text = some s ↔ s.spelling = text := by
  refine ⟨spelling_of_ofSpelling?, ?_⟩
  rintro rfl
  exact ofSpelling?_spelling s

theorem ofSpelling?_eq_none_iff {text : List Char} :
    ofSpelling? text = none ↔ ∀ s : Symbol, s.spelling ≠ text := by
  simp only [Option.eq_none_iff_forall_ne_some, ne_eq, ofSpelling?_eq_some_iff]

/-- The only second character is an equals sign. -/
theorem eq_of_spelling_pair {s : Symbol} {c d : Char} (h : s.spelling = [c, d]) : d = '=' := by
  cases s <;> simp [spelling] at h <;> exact h.2.symm

/-- The first character of a symbol is a symbol itself. -/
theorem exists_spelling_singleton {s : Symbol} {c : Char} {tail : List Char}
    (h : s.spelling = c :: tail) : ∃ t : Symbol, t.spelling = [c] := by
  have hs : (ofSpelling? [c]).isSome = true := by
    cases s <;> (cases h; decide)
  obtain ⟨t, ht⟩ := Option.isSome_iff_exists.1 hs
  exact ⟨t, ofSpelling?_eq_some_iff.1 ht⟩

/-- No symbol has more than two characters. -/
theorem length_spelling_le (s : Symbol) : s.spelling.length ≤ 2 := by
  cases s <;> decide

theorem spelling_ne_nil (s : Symbol) : s.spelling ≠ [] := by
  cases s <;> decide

/-- No two symbols share a spelling. -/
theorem spelling_injective {s t : Symbol} (h : s.spelling = t.spelling) : s = t := by
  have hs := ofSpelling?_spelling s
  rw [h, ofSpelling?_spelling] at hs
  exact (Option.some.inj hs).symm

end Symbol

end LoxTokens
