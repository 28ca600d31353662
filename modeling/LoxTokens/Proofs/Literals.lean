import LoxTokens.Proofs.Endings
import LoxTokens.Proofs.Entries

/-!
# The values of literals

A string is worth the text between its quotes, and a number is worth the one that its text denotes.
What a lexer reads as a numeral is always a text that denotes a number, so that the value which
stands for a text without one never gets into a token.
-/

namespace LoxTokens

/-- Every numeral of the grammar denotes a number. -/
theorem Binary64.ofNumeral?_of_mem {text : List Char} (h : text ∈ Rule.number.language) :
    ofNumeral? text = some (ofNumeral text) := by
  have hnumeral : Piece.numeral (text ++ []) = text :=
    (Piece.numeral_append_eq_left_iff h).2 (Piece.endsAt_nil _)
  rw [List.append_nil] at hnumeral
  obtain ⟨whole, hne, hwhole, ht⟩ := Rule.mem_number_iff.1 h
  obtain ⟨c, cs, rfl⟩ := List.exists_cons_of_ne_nil hne
  have hc := hwhole c List.mem_cons_self
  obtain ⟨tail, rfl⟩ : ∃ tail, text = c :: tail := by
    rcases ht with rfl | ⟨part, -, -, rfl⟩
    · exact ⟨cs, rfl⟩
    · exact ⟨cs ++ '.' :: part, rfl⟩
  have hread := Lexer.ofNumeral?_numeral hc tail
  rwa [hnumeral] at hread

namespace Token

/-- The value of a token is the one that its text stands for. -/
structure Exact (t : Token) : Prop where
  /-- Strings and numbers have a value, and nothing else has. -/
  isSome_literal_iff : t.literal.isSome = true ↔ t.kind = .string ∨ t.kind = .number
  /-- A string is its value between two quotes, and no quote is part of the value. -/
  text_of_string : t.kind = .string → ∃ value, t.literal = some (.text value) ∧
    '"' ∉ value.toList ∧ t.lexeme = "\"" ++ value ++ "\""
  /-- A number is a numeral of the grammar. -/
  lexeme_mem_of_number : t.kind = .number → t.lexeme.toList ∈ Rule.number.language
  /-- Its value is the number that the whole numeral is read as, which is neither negative nor no
  number at all. -/
  number_of_number : t.kind = .number → ∃ x, Binary64.ofNumeral? t.lexeme.toList = some x ∧
    t.literal = some (.number x) ∧ x.isNaN = false ∧ x.isNegative = false

/-- What is neither a string nor a number has no value. -/
theorem exact_of_literal_eq_none {t : Token} (hliteral : t.literal = none)
    (hstring : t.kind ≠ .string) (hnumber : t.kind ≠ .number) : t.Exact where
  isSome_literal_iff := by simp [hliteral, hstring, hnumber]
  text_of_string := fun h => absurd h hstring
  lexeme_mem_of_number := fun h => absurd h hnumber
  number_of_number := fun h => absurd h hnumber

/-- A rule makes tokens with exact values. -/
theorem exact_startAt {r : Rule} {kind : Kind} {text : List Char}
    (h : Rule.Makes r (.token kind text)) (place : Location) :
    (startAt place kind text).Exact := by
  have hlexeme : (startAt place kind text).lexeme.toList = text := String.toList_ofList
  have hother : Kind.string ≠ .number := by decide
  cases h with
  | symbol | keyword | identifier =>
    exact exact_of_literal_eq_none rfl (by simp [startAt]) (by simp [startAt])
  | string h =>
    obtain ⟨body, hbody, rfl⟩ := Rule.mem_string_iff.1 h
    refine ⟨by simp [startAt, Literal.ofLexeme], fun _ => ⟨String.ofList body, ?_, ?_, ?_⟩,
      fun he => absurd he hother, fun he => absurd he hother⟩
    · simp [startAt, Literal.ofLexeme]
    · rwa [String.toList_ofList]
    · refine String.toList_injective (hlexeme.trans ?_)
      simp
  | number h =>
    refine ⟨by simp [startAt, Literal.ofLexeme], fun he => absurd he.symm hother, fun _ => ?_,
      fun _ => ?_⟩
    · rwa [hlexeme]
    · rw [hlexeme]
      exact ⟨Binary64.ofNumeral text, Binary64.ofNumeral?_of_mem h, rfl,
        Binary64.isNaN_nearest _ _, Binary64.isNegative_nearest _ _⟩

end Token

/-- Every token of a scan has exactly the value that its text stands for. -/
theorem scan_literals (source : List Char) : ∀ t ∈ (Scan.ofText source).tokens, t.Exact := by
  intro t ht
  obtain ⟨place, kind, text, r, hr, rfl⟩ | ⟨place, rfl⟩ := Token.cases_of_mem ht
  · exact Token.exact_startAt hr place
  · exact Token.exact_of_literal_eq_none rfl (by simp [Token.endAt, Token.eof])
      (by simp [Token.endAt, Token.eof])

/-- A point behind digits is no part of their number, and so it does not spoil its value. -/
theorem scan_literals_point :
    let source := ['7', '.', '"', '7', '.', '"']
    let seven : Token := ⟨.number, "7", some (.number ⟨0x401C000000000000⟩), 1, ⟨0, 1, 1, 1⟩⟩
    let string : Token := ⟨.string, "\"7.\"", some (.text "7."), 1, ⟨2, 6, 1, 3⟩⟩
    seven ∈ (Scan.ofText source).tokens ∧ seven.Exact ∧
      string ∈ (Scan.ofText source).tokens ∧ string.Exact := by
  intro source seven string
  have hseven : seven ∈ (Scan.ofText source).tokens := by decide +kernel
  have hstring : string ∈ (Scan.ofText source).tokens := by decide +kernel
  exact ⟨hseven, scan_literals source seven hseven, hstring, scan_literals source string hstring⟩

end LoxTokens
