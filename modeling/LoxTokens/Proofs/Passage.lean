import LoxTokens.Lexer

/-!
# Passing through a text

A lexer always stands between two pieces of its text. It has recorded the errors of the pieces
behind it, and the tokens still to come are those of the pieces ahead. So a scan of a text is the
one that its pieces make.
-/

namespace LoxTokens.Lexer

/-- A lexer has passed the first pieces of a text and nothing else. -/
structure Passed (source : List Char) (l : Lexer) (ps : List Piece) : Prop where
  /-- The pieces ahead follow those behind. -/
  pieces_eq : pieces source = ps ++ pieces l.cursor.rest
  /-- The lexer stands behind the text of the pieces behind it. -/
  location_eq : l.cursor.location = Location.after {} (ps.flatMap Piece.text)
  /-- The errors met are those of the pieces behind. -/
  errors_eq : l.errors = errorsFrom {} ps

/-- A fresh lexer has passed nothing. -/
theorem passed_ofText (source : List Char) : Passed source (ofText source) [] :=
  ⟨rfl, rfl, rfl⟩

variable {source : List Char} {l : Lexer} {ps : List Piece}

/-- The first piece of the text that is left is the next one to pass. -/
theorem Passed.pass {c : Char} {cs : List Char} (h : Passed source l ps)
    (hr : l.cursor.rest = c :: cs) :
    Passed source (l.pass (.first c cs)) (ps ++ [.first c cs]) := by
  have hp := Piece.text_first_isPrefix c cs
  refine ⟨?_, ?_, ?_⟩
  · rw [h.pieces_eq, hr, pieces, cursor_pass, Cursor.rest_forward, hr, List.append_assoc]
    rfl
  · rw [cursor_pass, Cursor.location_forward, hr, ← List.prefix_iff_eq_take.1 hp, h.location_eq,
      List.flatMap_append, Location.after_append, List.flatMap_singleton]
  · rw [errorsFrom_append, ← h.errors_eq, ← h.location_eq, errorsFrom_cons, errorsFrom_nil,
      List.append_nil, errors, errors, Lexer.pass]
    cases (Piece.first c cs).error? l.cursor.location <;> simp

/-- Where no token piece is left, the next token is the end of the text. Otherwise it is the token
of the first one, and the lexer stands behind it. -/
theorem Passed.nextToken (h : Passed source l ps) :
    (tokensFrom {} ps = tokensFrom {} (pieces source) ∧
      l.nextToken.1 = Token.endAt (Location.after {} source) ∧
      Passed source l.nextToken.2 (pieces source)) ∨
    ∃ qs, tokensFrom {} (ps ++ qs) = tokensFrom {} ps ++ [l.nextToken.1] ∧
      l.nextToken.1.isEof = false ∧ Passed source l.nextToken.2 (ps ++ qs) ∧
      l.nextToken.1.span.stop = l.nextToken.2.position ∧
      l.nextToken.1.line = l.nextToken.2.line := by
  induction hq : pieces l.cursor.rest generalizing l ps with
  | nil =>
    have hr := eq_nil_of_pieces_eq_nil hq
    have hs : pieces source = ps := by rw [h.pieces_eq, hq, List.append_nil]
    have hl : l.cursor.location = Location.after {} source := by
      rw [h.location_eq, ← hs, flatMap_text_pieces]
    rw [nextToken_of_nil hr, hs, hl]
    exact Or.inl ⟨rfl, rfl, h.pieces_eq, h.location_eq, h.errors_eq⟩
  | cons p qs ih =>
    obtain ⟨c, cs, hr, rfl, hqs⟩ := exists_eq_cons_of_pieces_eq_cons hq
    have hp := h.pass hr
    have htok : tokensFrom {} (ps ++ [.first c cs]) =
        tokensFrom {} ps ++ ((Piece.first c cs).token? l.cursor.location).toList := by
      rw [tokensFrom_append, tokensFrom_cons, tokensFrom_nil, List.append_nil, h.location_eq]
    rw [nextToken_of_cons hr]
    cases ht : (Piece.first c cs).token? l.cursor.location with
    | none =>
      have hrest : pieces (l.pass (.first c cs)).cursor.rest = qs := by
        rw [cursor_pass, Cursor.rest_forward, hqs]
      rw [ht, Option.toList_none, List.append_nil] at htok
      rcases ih hp hrest with ⟨he, hend⟩ | ⟨qs', he, hnext⟩
      · exact Or.inl ⟨htok.symm.trans he, hend⟩
      · rw [List.append_assoc] at he hnext
        exact Or.inr ⟨.first c cs :: qs', by rw [← htok]; exact he, hnext⟩
    | some t =>
      rw [ht] at htok
      obtain ⟨kind, text, hf, rfl⟩ := Piece.token?_eq_some_iff.1 ht
      have hplace : (l.pass (.first c cs)).cursor.location = l.cursor.location.after text := by
        have ht := List.prefix_iff_eq_take.1 (Piece.text_first_isPrefix c cs)
        rw [cursor_pass, Cursor.location_forward, hr, ← ht, hf]
        rfl
      have hend : (Token.startAt l.cursor.location kind text).isEof = false :=
        beq_false_of_ne (Piece.kind_ne_eof_of_first hf)
      refine Or.inr ⟨[.first c cs], htok, hend, hp, ?_, ?_⟩
      · exact (congrArg Location.offset hplace).symm
      · exact (congrArg Location.line hplace).symm

/-- Whether the stream has ended does not matter for what has been passed. -/
theorem Passed.with_finished (h : Passed source l ps) (b : Bool) :
    Passed source { l with finished := b } ps :=
  ⟨h.pieces_eq, h.location_eq, h.errors_eq⟩

/-- A stream that has not ended hands out the tokens of the pieces ahead and the end. -/
theorem Passed.drain (h : Passed source l ps) (hf : l.finished = false) :
    ∃ ts, l.drain.1 = ts ++ [Token.endAt (Location.after {} source)] ∧
      tokensFrom {} ps ++ ts = tokensFrom {} (pieces source) ∧
      Passed source l.drain.2 (pieces source) := by
  induction hn : l.pending using Nat.strongRecOn generalizing l ps with
  | _ n ih =>
    subst hn
    rw [drain_of_not_finished hf]
    have hlt := pending_next_lt (next_of_not_finished hf)
    rcases h.nextToken with ⟨hall, he, hp⟩ | ⟨qs, htok, heof, hp, -, -⟩
    · have hend : l.nextToken.1.isEof = true := by rw [he]; rfl
      rw [hend, drain_of_finished rfl, he]
      exact ⟨[], rfl, by rw [List.append_nil, hall], hp.with_finished true⟩
    · rw [heof] at hlt ⊢
      obtain ⟨ts, hd, ht, hq⟩ := ih _ hlt (hp.with_finished false) rfl rfl
      rw [hd]
      refine ⟨l.nextToken.1 :: ts, rfl, ?_, hq⟩
      rw [← ht, htok, List.append_assoc, List.singleton_append]

end LoxTokens.Lexer

namespace LoxTokens

/-- The scan of a text is the one that its pieces make. -/
theorem Scan.ofText_eq_ofPieces (text : List Char) :
    Scan.ofText text = Scan.ofPieces (pieces text) := by
  obtain ⟨ts, hd, ht, hp⟩ := (Lexer.passed_ofText text).drain rfl
  rw [tokensFrom_nil, List.nil_append] at ht
  rw [Scan.ofText, Lexer.scanTokens_eq, Scan.ofPieces, hd, hp.errors_eq, ht, flatMap_text_pieces]

/-- An empty text has nothing but an end. -/
theorem Scan.ofText_nil : Scan.ofText [] = { tokens := [Token.endAt {}], errors := [] } := by
  rw [ofText_eq_ofPieces, pieces_nil]
  rfl

/-- All tokens of a scan but the last are those of its pieces. -/
theorem proper_tokens (source : List Char) :
    proper (Scan.ofText source).tokens = tokensFrom {} (pieces source) := by
  have hall : proper (tokensFrom {} (pieces source)) = tokensFrom {} (pieces source) := by
    refine List.filter_eq_self.2 fun t ht => ?_
    have hk := kind_ne_eof_of_mem_tokensFrom ht
    simpa [Token.isEof] using hk
  rw [Scan.ofText_eq_ofPieces, Scan.ofPieces, proper_append, hall]
  exact List.append_nil _

end LoxTokens
