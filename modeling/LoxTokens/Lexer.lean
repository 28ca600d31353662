import LoxTokens.Lexer.Piecewise

/-!
# Lexers

A lexer hands out the tokens of a text one by one. On the way to the next token it reads over gaps
and records errors. As a stream it hands out the token that ends the text once and nothing
afterwards; asked for a token beyond that, it answers with the end again and again.
-/

namespace LoxTokens

namespace Lexer

/-- A lexeme takes at least one character. -/
theorem length_rest_readLexeme_lt {l : Lexer} (h : l.cursor.atEnd ≠ true) :
    l.begin.readLexeme.2.cursor.rest.length < l.cursor.rest.length := by
  obtain ⟨c, cs, hr⟩ := List.exists_cons_of_ne_nil (mt Cursor.atEnd_iff.2 h)
  rw [readLexeme_begin hr, readPiece, cursor_pass, Cursor.rest_forward, hr]
  exact Piece.length_drop_first_lt c cs

/-- Read up to and including the next token. At the end that is the end of the text. -/
def nextToken (l : Lexer) : Token × Lexer :=
  if _h : l.cursor.atEnd = true then
    let l := l.begin
    (Token.eof l.line l.span, l)
  else
    match _hr : l.begin.readLexeme with
    | (some t, rest) => (t, rest)
    | (none, rest) => rest.nextToken
termination_by l.cursor.rest.length
decreasing_by
  have hlt := length_rest_readLexeme_lt _h
  rwa [_hr] at hlt

/-- No token is read backwards, and one that does not end the text is read off it. -/
theorem length_rest_nextToken (l : Lexer) :
    l.nextToken.2.cursor.rest.length ≤ l.cursor.rest.length ∧
      (l.nextToken.1.isEof = false →
        l.nextToken.2.cursor.rest.length < l.cursor.rest.length) := by
  fun_induction nextToken l with
  | case1 l _ _ => exact ⟨Nat.le_refl _, fun h => absurd h Bool.noConfusion⟩
  | case2 l h t rest hr =>
    have hlt := length_rest_readLexeme_lt h
    rw [hr] at hlt
    exact ⟨Nat.le_of_lt hlt, fun _ => hlt⟩
  | case3 l h rest hr ih =>
    have hlt := length_rest_readLexeme_lt h
    rw [hr] at hlt
    exact ⟨Nat.le_trans ih.1 (Nat.le_of_lt hlt), fun ht => Nat.lt_trans (ih.2 ht) hlt⟩

/-- The next token of the stream: none once the end has been handed out. -/
def next (l : Lexer) : Option Token × Lexer :=
  if l.finished then (none, l)
  else
    let (t, rest) := l.nextToken
    (some t, { rest with finished := t.isEof })

/-- How much the stream can still hand out: the characters that are left, and the end. -/
def pending (l : Lexer) : Nat := l.cursor.rest.length + if l.finished then 0 else 1

theorem pending_next_lt {l rest : Lexer} {t : Token} (h : l.next = (some t, rest)) :
    rest.pending < l.pending := by
  unfold next at h
  split at h
  · cases h
  · rename_i hf
    obtain ⟨hle, hlt⟩ := l.length_rest_nextToken
    cases h
    simp only [pending, hf, Bool.false_eq_true, if_false]
    split
    · omega
    · rename_i ht
      have := hlt (Bool.eq_false_iff.2 ht)
      omega

/-- All tokens that the stream still has. -/
def drain (l : Lexer) : List Token × Lexer :=
  match _h : l.next with
  | (none, last) => ([], last)
  | (some t, rest) =>
    let (ts, last) := rest.drain
    (t :: ts, last)
termination_by l.pending
decreasing_by exact pending_next_lt _h

/-- Read the rest of the text: the tokens still to come, and all errors. -/
def scanTokens (l : Lexer) : Scan :=
  let (tokens, last) := l.drain
  ⟨tokens, last.errors⟩

theorem scanTokens_eq (l : Lexer) : l.scanTokens = ⟨l.drain.1, l.drain.2.errors⟩ := rfl

/-- At the end of the text the next token is the end. -/
theorem nextToken_of_nil {l : Lexer} (h : l.cursor.rest = []) :
    l.nextToken = (Token.endAt l.cursor.location, l.begin) := by
  rw [nextToken, dif_pos (Cursor.atEnd_iff.2 h)]
  rfl

/-- Elsewhere the first piece is the next token, or the next token comes behind it. -/
theorem nextToken_of_cons {l : Lexer} {c : Char} {cs : List Char} (h : l.cursor.rest = c :: cs) :
    l.nextToken =
      match (Piece.first c cs).token? l.cursor.location with
      | some t => (t, l.pass (.first c cs))
      | none => (l.pass (.first c cs)).nextToken := by
  have hend : ¬ l.cursor.atEnd = true := by
    rw [Cursor.atEnd_iff, h]
    exact List.cons_ne_nil c cs
  rw [nextToken, dif_neg hend]
  have hr := readLexeme_begin h
  split <;> rename_i heq <;> rw [hr, readPiece, Prod.mk.injEq] at heq <;>
    obtain ⟨ht, rfl⟩ := heq <;> rw [ht]

/-- Asking for a token does not end the stream. -/
@[simp] theorem finished_nextToken (l : Lexer) : l.nextToken.2.finished = l.finished := by
  induction hq : pieces l.cursor.rest generalizing l with
  | nil => rw [nextToken_of_nil (eq_nil_of_pieces_eq_nil hq)]; rfl
  | cons p qs ih =>
    obtain ⟨c, cs, hr, rfl, hqs⟩ := exists_eq_cons_of_pieces_eq_cons hq
    rw [nextToken_of_cons hr]
    split
    · rfl
    · rw [ih (l.pass (.first c cs)) (by rw [cursor_pass, Cursor.rest_forward, hqs])]
      rfl

/-- Once the end has been handed out, the stream hands out nothing. -/
theorem next_of_finished {l : Lexer} (h : l.finished = true) : l.next = (none, l) := by
  rw [next, if_pos h]

/-- Until then it hands out the next token. -/
theorem next_of_not_finished {l : Lexer} (h : l.finished = false) :
    l.next = (some l.nextToken.1,
      { l.nextToken.2 with finished := l.nextToken.1.isEof }) := by
  rw [next, h, if_neg Bool.false_ne_true]

theorem drain_of_finished {l : Lexer} (h : l.finished = true) : l.drain = ([], l) := by
  rw [drain]
  split <;> rename_i hn <;> rw [next_of_finished h] at hn <;> cases hn
  rfl

theorem drain_of_not_finished {l : Lexer} (h : l.finished = false) :
    l.drain =
      (l.nextToken.1 :: ({ l.nextToken.2 with finished := l.nextToken.1.isEof } : Lexer).drain.1,
        ({ l.nextToken.2 with finished := l.nextToken.1.isEof } : Lexer).drain.2) := by
  rw [drain]
  split <;> rename_i hn <;> rw [next_of_not_finished h] at hn <;> cases hn
  rfl

end Lexer

/-- Read a whole text. -/
def Scan.ofText (text : List Char) : Scan := (Lexer.ofText text).scanTokens

end LoxTokens
