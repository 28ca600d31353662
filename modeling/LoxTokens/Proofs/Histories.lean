import LoxTokens.Proofs.Places

/-!
# Histories of calls

A lexer can be asked for its next token and read as a stream, in any order, and closed at any time.
Both ways hand out one sequence of tokens and record one sequence of errors, those of the scan of
the whole text. They differ at the end only: the stream hands it out once, whatever has been asked
for outside of it.
-/

namespace LoxTokens

/-- The ways to ask a lexer for a token. -/
inductive Call where
  /-- Ask for the next token. -/
  | nextToken
  /-- Read the stream. -/
  | next
  deriving DecidableEq, Repr

/-- The tokens that calls have been answered with, in order. -/
def handed (events : List (Call × Option Token)) : List Token := events.filterMap Prod.snd

namespace Lexer

/-- The answer to a call, and the lexer behind it. -/
def call (l : Lexer) : Call → Option Token × Lexer
  | .nextToken => (some l.nextToken.1, l.nextToken.2)
  | .next => l.next

/-- The answers to calls that follow one another, and the lexer behind them. -/
def history (l : Lexer) : List Call → List (Call × Option Token) × Lexer
  | [] => ([], l)
  | c :: cs =>
    let (t, rest) := l.call c
    let (events, last) := rest.history cs
    ((c, t) :: events, last)

/-- What a history of calls leaves behind, next to the scan of the whole text and its last token. -/
structure Agrees (s : Scan) (last : Token) (l : Lexer) (events : List (Call × Option Token)) :
    Prop where
  /-- The tokens handed out are the first ones of the scan. -/
  tokens_isPrefix : proper (handed events) <+: proper s.tokens
  /-- Behind a token that does not end the text, the lexer stands where the token stops. -/
  place_eq : ∀ c t, (l.call c).1 = some t → t.isEof = false →
    (l.call c).2.position = t.span.stop ∧ (l.call c).2.line = t.line
  /-- The errors met are the first ones of the scan. -/
  errors_isPrefix : l.errors <+: s.errors
  /-- They are those that start in front of the place where the lexer stands. -/
  errors_eq : l.errors = s.errors.filter (·.start < l.position)
  /-- The end is handed out behind all other tokens, as the last one of the scan. -/
  eof_eq : ∀ c t, (l.call c).1 = some t → t.isEof = true →
    t = last ∧ proper (handed events) = proper s.tokens
  /-- Every end that has been handed out is that token. -/
  eof_of_mem : ∀ t ∈ handed events, t.isEof = true → t = last
  /-- Once it has been handed out it is the next token for ever. -/
  nextToken_eq : (∃ t ∈ handed events, t.isEof = true) → l.nextToken.1 = last
  /-- The stream hands it out at most once. -/
  count_le : events.count (.next, some last) ≤ 1
  /-- It has nothing more to hand out if and only if it has handed out the end. -/
  next_eq_none_iff : l.next.1 = none ↔ (.next, some last) ∈ events
  /-- What is left is handed out when the lexer is closed. -/
  scanTokens_tokens : l.scanTokens.tokens =
    if (.next, some last) ∈ events then []
    else (proper s.tokens).drop (proper (handed events)).length ++ [last]
  /-- All errors are known then. -/
  scanTokens_errors : l.scanTokens.errors = s.errors

/-- The invariant of a history: which pieces it has passed. -/
structure Follows (source : List Char) (l : Lexer) (events : List (Call × Option Token))
    (ps : List Piece) : Prop where
  /-- The lexer stands behind these pieces. -/
  passed : Passed source l ps
  /-- The tokens handed out are theirs. -/
  tokens_eq : proper (handed events) = tokensFrom {} ps
  /-- The end is handed out behind all pieces. -/
  eof : ∀ t ∈ handed events, t.isEof = true →
    t = Token.endAt (Location.after {} source) ∧ ps = pieces source
  /-- The stream has handed out the end once if it has ended, and never before. -/
  count_eq : events.count (.next, some (Token.endAt (Location.after {} source))) =
    if l.finished then 1 else 0

end Lexer

theorem handed_append (es fs : List (Call × Option Token)) :
    handed (es ++ fs) = handed es ++ handed fs :=
  List.filterMap_append ..

namespace Lexer

variable {source : List Char} {l : Lexer} {ps : List Piece} {events : List (Call × Option Token)}

/-- Behind the end of the stream a call to it is answered with nothing. -/
theorem call_of_finished (h : l.finished = true) : l.call .next = (none, l) := next_of_finished h

/-- Every other call is answered with the next token. -/
theorem call_of_not_finished {c : Call} (h : ¬ (c = .next ∧ l.finished = true)) :
    l.call c = (some l.nextToken.1,
      { l.nextToken.2 with
        finished := if c = .next then l.nextToken.1.isEof else l.finished }) := by
  cases c with
  | nextToken =>
    have hf := l.finished_nextToken
    rw [call, if_neg (by simp), ← hf]
  | next =>
    have hf : l.finished = false := by simpa using h
    rw [call, next_of_not_finished hf, if_pos rfl]

/-- Behind all pieces the next token is the end. -/
theorem Passed.nextToken_eq (h : Passed source l (pieces source)) :
    l.nextToken.1 = Token.endAt (Location.after {} source) := by
  have hrest : pieces l.cursor.rest = [] := by simpa using h.pieces_eq
  rw [nextToken_of_nil (eq_nil_of_pieces_eq_nil hrest), h.location_eq, flatMap_text_pieces]

/-- The next token is an end only if it is the end of the text. -/
theorem Passed.isEof_nextToken_iff (h : Passed source l ps) :
    l.nextToken.1.isEof = true ↔ l.nextToken.1 = Token.endAt (Location.after {} source) := by
  constructor
  · intro he
    rcases h.nextToken with ⟨-, ht, -⟩ | ⟨qs, -, hf, -⟩
    · exact ht
    · rw [he] at hf
      cases hf
  · intro he
    rw [he]
    rfl

/-- Nothing has been handed out at first. -/
theorem follows_ofText (source : List Char) : Follows source (ofText source) [] [] where
  passed := passed_ofText source
  tokens_eq := rfl
  eof := fun _ ht => absurd ht List.not_mem_nil
  count_eq := rfl

/-- The stream has ended if and only if it has handed out the end. -/
theorem Follows.finished_iff (h : Follows source l events ps) :
    l.finished = true ↔ (.next, some (Token.endAt (Location.after {} source))) ∈ events := by
  rw [← List.count_pos_iff, h.count_eq]
  cases l.finished <;> simp

/-- Behind the end of the stream there is no piece left. -/
theorem Follows.eq_pieces_of_finished (h : Follows source l events ps) (hf : l.finished = true) :
    ps = pieces source := by
  have hm := h.finished_iff.1 hf
  have ht : Token.endAt (Location.after {} source) ∈ handed events :=
    List.mem_filterMap.2 ⟨_, hm, rfl⟩
  exact (h.eof _ ht rfl).2

/-- A call to the stream that hands out the end is counted, and no other call is. -/
theorem Follows.count_call (h : Follows source l events ps) {c : Call}
    (hc : ¬ (c = .next ∧ l.finished = true)) :
    (events ++ [(c, (l.call c).1)]).count
        (.next, some (Token.endAt (Location.after {} source))) =
      if (l.call c).2.finished then 1 else 0 := by
  have heof := h.passed.isEof_nextToken_iff
  rw [call_of_not_finished hc, List.count_append, h.count_eq, List.count_singleton]
  cases c with
  | nextToken => simp
  | next =>
    have hf : l.finished = false := by simpa using hc
    by_cases ht : l.nextToken.1.isEof = true
    · simp [hf, heof.1 ht, Token.isEof, Token.endAt, Token.eof]
    · have hne := mt heof.2 ht
      simp [hf, hne, ht]

/-- Every call keeps the invariant. -/
theorem Follows.call (h : Follows source l events ps) (c : Call) :
    ∃ qs, Follows source (l.call c).2 (events ++ [(c, (l.call c).1)]) qs := by
  by_cases hc : c = .next ∧ l.finished = true
  · obtain ⟨rfl, hf⟩ := hc
    have hnone : handed (events ++ [(.next, none)]) = handed events := by
      rw [handed_append]
      exact List.append_nil _
    rw [call_of_finished hf]
    refine ⟨ps, h.passed, ?_, ?_, ?_⟩
    · rw [hnone, h.tokens_eq]
    · rw [hnone]
      exact h.eof
    · rw [List.count_append, h.count_eq]
      rfl
  · have hcall := call_of_not_finished hc
    have hhanded : handed (events ++ [(c, (l.call c).1)]) = handed events ++ [l.nextToken.1] := by
      rw [hcall, handed_append]
      rfl
    have hpassed {qs : List Piece} (hp : Passed source l.nextToken.2 qs) :
        Passed source (l.call c).2 qs := by
      rw [hcall]
      exact hp.with_finished _
    rcases h.passed.nextToken with ⟨hall, ht, hp⟩ | ⟨qs, htok, hno, hp, -, -⟩
    · refine ⟨pieces source, hpassed hp, ?_, ?_, h.count_call hc⟩
      · rw [hhanded, proper_append, h.tokens_eq, hall, ht]
        exact List.append_nil _
      · intro t hm he
        rw [hhanded] at hm
        rcases List.mem_append.1 hm with hm | hm
        · exact ⟨(h.eof t hm he).1, rfl⟩
        · rw [List.mem_singleton.1 hm]
          exact ⟨ht, rfl⟩
    · refine ⟨ps ++ qs, hpassed hp, ?_, ?_, h.count_call hc⟩
      · rw [hhanded, proper_append, h.tokens_eq, htok]
        simp [proper, hno]
      · intro t hm he
        rw [hhanded] at hm
        rcases List.mem_append.1 hm with hm | hm
        · -- An end that has been handed out leaves no piece for another token.
          have hps := (h.eof t hm he).2
          have hend := (hps ▸ h.passed : Passed source l (pieces source)).nextToken_eq
          rw [hend] at hno
          cases hno
        · rw [List.mem_singleton.1 hm, hno] at he
          cases he

/-- So does a history of calls. -/
theorem Follows.history (h : Follows source l events ps) (calls : List Call) :
    ∃ qs, Follows source (l.history calls).2 (events ++ (l.history calls).1) qs := by
  induction calls generalizing l events ps with
  | nil => exact ⟨ps, by rwa [Lexer.history, List.append_nil]⟩
  | cons c calls ih =>
    obtain ⟨qs, hq⟩ := h.call c
    have hcs := ih hq
    rwa [List.append_assoc] at hcs

/-- The errors met are the first ones of the text, up to the place where the lexer stands. -/
theorem Passed.errors_filter (h : Passed source l ps) :
    l.errors <+: errorsFrom {} (pieces source) ∧
      l.errors = (errorsFrom {} (pieces source)).filter (·.start < l.position) := by
  have hsplit : errorsFrom {} (pieces source) =
      l.errors ++ errorsFrom l.cursor.location (pieces l.cursor.rest) := by
    rw [h.pieces_eq, errorsFrom_append, ← h.location_eq, h.errors_eq]
  have hne : ∀ p ∈ ps, p.text ≠ [] := fun p => text_ne_nil_of_pieces_eq_append h.pieces_eq
  have hmet : l.errors.filter (·.start < l.position) = l.errors := by
    refine List.filter_eq_self.2 fun e he => decide_eq_true ?_
    rw [h.errors_eq] at he
    have hlt := start_lt_of_mem_errorsFrom he hne
    rwa [← h.location_eq] at hlt
  have hahead :
      (errorsFrom l.cursor.location (pieces l.cursor.rest)).filter (·.start < l.position) = [] := by
    refine List.filter_eq_nil_iff.2 fun e he => ?_
    have hle := le_start_of_mem_errorsFrom he
    exact fun hlt => absurd (of_decide_eq_true hlt) (Nat.not_lt.2 hle)
  rw [hsplit, List.filter_append, hmet, hahead, List.append_nil]
  exact ⟨List.prefix_append _ _, rfl⟩

/-- A call that is answered with a token is answered with the next one, and moves behind it. -/
theorem nextToken_of_call {c : Call} {t : Token} (h : (l.call c).1 = some t) :
    l.nextToken.1 = t ∧ (l.call c).2.cursor = l.nextToken.2.cursor := by
  by_cases hc : c = .next ∧ l.finished = true
  · obtain ⟨rfl, hf⟩ := hc
    rw [call_of_finished hf] at h
    cases h
  · rw [call_of_not_finished hc] at h ⊢
    exact ⟨Option.some.inj h, rfl⟩

/-- A lexer that keeps the invariant agrees with the scan of the whole text. -/
theorem Follows.agrees (h : Follows source l events ps) :
    Agrees (Scan.ofText source) (Token.endAt (Location.after {} source)) l events where
  tokens_isPrefix := by
    rw [h.tokens_eq, proper_tokens, h.passed.pieces_eq, tokensFrom_append]
    exact List.prefix_append _ _
  place_eq := by
    intro c t hc ht
    obtain ⟨rfl, hcursor⟩ := nextToken_of_call hc
    rw [position, line, hcursor]
    rcases h.passed.nextToken with ⟨-, he, -⟩ | ⟨qs, -, -, -, hstop, hline⟩
    · rw [he] at ht
      cases ht
    · exact ⟨hstop.symm, hline.symm⟩
  errors_isPrefix := by
    rw [Scan.ofText_eq_ofPieces]
    exact h.passed.errors_filter.1
  errors_eq := by
    rw [Scan.ofText_eq_ofPieces]
    exact h.passed.errors_filter.2
  eof_eq := by
    intro c t hc ht
    obtain ⟨rfl, -⟩ := nextToken_of_call hc
    rcases h.passed.nextToken with ⟨hall, he, -⟩ | ⟨qs, -, hno, -⟩
    · rw [h.tokens_eq, proper_tokens]
      exact ⟨he, hall⟩
    · rw [ht] at hno
      cases hno
  eof_of_mem := fun t hm ht => (h.eof t hm ht).1
  nextToken_eq := by
    rintro ⟨t, hm, ht⟩
    have hps := (h.eof t hm ht).2
    exact (hps ▸ h.passed : Passed source l (pieces source)).nextToken_eq
  count_le := by
    rw [h.count_eq]
    split <;> omega
  next_eq_none_iff := by
    rw [← h.finished_iff]
    cases hf : l.finished with
    | false => simp [next_of_not_finished hf]
    | true => simp [next_of_finished hf]
  scanTokens_tokens := by
    have hfin := h.finished_iff
    rw [scanTokens_eq]
    cases hf : l.finished with
    | false =>
      have hno : (.next, some (Token.endAt (Location.after {} source))) ∉ events := by
        rw [← hfin, hf]
        exact Bool.false_ne_true
      obtain ⟨ts, hd, ht, -⟩ := h.passed.drain hf
      rw [if_neg hno, hd, proper_tokens, h.tokens_eq, ← ht, List.drop_left]
    | true => rw [if_pos (hfin.1 hf), drain_of_finished hf]
  scanTokens_errors := by
    rw [scanTokens_eq, Scan.ofText_eq_ofPieces]
    cases hf : l.finished with
    | false =>
      obtain ⟨ts, -, -, hp⟩ := h.passed.drain hf
      exact hp.errors_eq
    | true =>
      rw [drain_of_finished hf, Scan.ofPieces, ← h.eq_pieces_of_finished hf]
      exact h.passed.errors_eq

/-- Whatever calls have been made on a fresh lexer, in whatever order, what they have handed out and
what they have left agree with the scan of the whole text. -/
theorem history_agrees (source : List Char) (calls : List Call) :
    ∃ last, last.isEof = true ∧
      (Scan.ofText source).tokens = proper (Scan.ofText source).tokens ++ [last] ∧
      Agrees (Scan.ofText source) last ((ofText source).history calls).2
        ((ofText source).history calls).1 := by
  obtain ⟨ps, hf⟩ := (follows_ofText source).history calls
  refine ⟨_, rfl, ?_, hf.agrees⟩
  rw [proper_tokens, Scan.ofText_eq_ofPieces, Scan.ofPieces, flatMap_text_pieces]

end Lexer

end LoxTokens
