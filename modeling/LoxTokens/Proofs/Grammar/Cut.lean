import LoxTokens.Proofs.Grammar.LongestMatch
import LoxTokens.Proofs.Passage

/-!
# Cuts

A text is cut from the left: each piece is the longest front of the text that is left which matches
a rule of the grammar. Where no front matches, a quote takes the whole text with it, and any other
character is a piece of its own. Every text has exactly one such cut, and its scan reads it piece
by piece.
-/

namespace LoxTokens

/-- How a text is cut into pieces from the left. -/
inductive Cuts : List Char → List Piece → Prop where
  | nil : Cuts [] []
  | lexeme {text rest : List Char} {p : Piece} {ps : List Piece} (hp : LongestMatch text p)
      (ht : text = p.text ++ rest) (hr : Cuts rest ps) : Cuts text (p :: ps)
  | unclosed {cs : List Char} (h : NoMatch ('"' :: cs)) :
      Cuts ('"' :: cs) [.unclosed ('"' :: cs)]
  | stray {c : Char} {cs : List Char} {ps : List Piece} (h : NoMatch (c :: cs)) (hc : c ≠ '"')
      (hr : Cuts cs ps) : Cuts (c :: cs) (.stray c :: ps)

/-- The pieces of a text are a cut of it. -/
theorem cuts_pieces (text : List Char) : Cuts text (pieces text) := by
  fun_induction pieces text with
  | case1 => exact .nil
  | case2 c cs ih =>
    by_cases h : NoMatch (c :: cs)
    · rcases Piece.first_of_noMatch h with ⟨rfl, hf⟩ | ⟨hc, hf⟩
      · have hd : ('"' :: cs).drop (Piece.first '"' cs).text.length = [] := by
          rw [hf]
          exact List.drop_length
        rw [hd, pieces_nil, hf]
        exact .unclosed h
      · rw [hf] at ih ⊢
        exact .stray h hc ih
    · simp only [NoMatch, not_forall, not_not] at h
      obtain ⟨r, front, hp, hm⟩ := h
      refine .lexeme (Piece.longestMatch_first hp hm) ?_ ih
      exact (List.prefix_iff_eq_append.1 (Piece.text_first_isPrefix c cs)).symm

/-- A text has no other cut. -/
theorem Cuts.eq_pieces {text : List Char} {ps : List Piece} (h : Cuts text ps) :
    ps = pieces text := by
  induction h with
  | nil => exact pieces_nil.symm
  | @lexeme text rest p ps hp ht _ ih =>
    cases text with
    | nil =>
      obtain ⟨r, hr⟩ := hp.made
      exact absurd (List.append_eq_nil_iff.1 ht.symm).1 (Rule.ne_nil_of_mem hr.mem)
    | cons c cs =>
      rw [pieces_cons, ih, ← Piece.eq_first_of_longestMatch hp, ht, List.drop_left]
  | @unclosed cs h =>
    obtain ⟨-, hf⟩ | ⟨hq, -⟩ := Piece.first_of_noMatch h
    · rw [pieces_cons, hf, Piece.text, List.drop_length, pieces_nil]
    · exact absurd rfl hq
  | @stray c cs ps h hc _ ih =>
    obtain ⟨hq, -⟩ | ⟨-, hf⟩ := Piece.first_of_noMatch h
    · exact absurd hq hc
    · rw [pieces_cons, hf, ih]
      rfl

/-- Every token piece is made by a rule. -/
theorem exists_makes_of_mem_pieces {source text : List Char} {kind : Kind}
    (h : .token kind text ∈ pieces source) : ∃ r, Rule.Makes r (.token kind text) := by
  have hcuts := cuts_pieces source
  generalize pieces source = ps at h hcuts
  induction hcuts with
  | nil => cases h
  | lexeme hp _ _ ih =>
    rcases List.mem_cons.1 h with rfl | h
    · exact hp.made
    · exact ih h
  | unclosed => cases List.mem_singleton.1 h
  | stray _ _ _ ih =>
    rcases List.mem_cons.1 h with h | h
    · cases h
    · exact ih h

namespace Piece

/-- What a token piece says about its token: the kind and the text. -/
def reading? : Piece → Option (Kind × List Char)
  | token kind text => some (kind, text)
  | _ => none

/-- What an error piece says about its error: the character, if it is one that starts nothing. -/
def culprit? : Piece → Option (Option Char)
  | stray c => some (some c)
  | unclosed _ => some none
  | _ => none

end Piece

/-- The kind and the text of a token. -/
def Token.reading (t : Token) : Kind × List Char := (t.kind, t.lexeme.toList)

/-- The character that an error carries. -/
def LexError.culprit? : LexError → Option Char
  | unexpectedCharacter c _ => some c
  | unterminatedString .. => none

/-- The tokens of pieces are the token pieces in order. -/
theorem map_reading_tokensFrom (place : Location) (ps : List Piece) :
    (tokensFrom place ps).map Token.reading = ps.filterMap Piece.reading? := by
  induction ps generalizing place with
  | nil => rfl
  | cons p ps ih =>
    rw [tokensFrom_cons, List.map_append, ih]
    cases p with
    | token kind text => simp [Piece.token?, Piece.reading?, Token.reading, Token.startAt]
    | gap | stray | unclosed => rfl

/-- The errors of pieces are the error pieces in order. -/
theorem map_culprit?_errorsFrom (place : Location) (ps : List Piece) :
    (errorsFrom place ps).map LexError.culprit? = ps.filterMap Piece.culprit? := by
  induction ps generalizing place with
  | nil => rfl
  | cons p ps ih =>
    rw [errorsFrom_cons, List.map_append, ih]
    cases p <;> rfl

/-- Every text has exactly one cut, and its scan is the one of that cut: a token for every token
piece, an error for every error piece, and the end of the text behind them. -/
theorem scan_eq_longest_match (source : List Char) :
    ∃ ps, Cuts source ps ∧ (∀ qs, Cuts source qs → qs = ps) ∧
      (∀ p ∈ ps, p.text ≠ []) ∧ ps.flatMap Piece.text = source ∧
      Scan.ofText source = Scan.ofPieces ps ∧
      (∃ ts e, (Scan.ofText source).tokens = ts ++ [e] ∧
        ts.map Token.reading = ps.filterMap Piece.reading? ∧ (∀ t ∈ ts, t.kind ≠ .eof) ∧
        e.kind = .eof ∧ e.lexeme = "" ∧ e.literal = none) ∧
      (Scan.ofText source).errors.map LexError.culprit? = ps.filterMap Piece.culprit? := by
  have hscan := Scan.ofText_eq_ofPieces source
  refine ⟨pieces source, cuts_pieces source, fun qs => Cuts.eq_pieces,
    fun p => text_ne_nil_of_mem_pieces, flatMap_text_pieces source, hscan, ?_, ?_⟩
  · rw [hscan]
    refine ⟨_, _, rfl, map_reading_tokensFrom {} _, fun t ht => ?_, rfl, rfl, rfl⟩
    exact kind_ne_eof_of_mem_tokensFrom ht
  · rw [hscan]
    exact map_culprit?_errorsFrom {} _

end LoxTokens
