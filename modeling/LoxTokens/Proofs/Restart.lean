import LoxTokens.Proofs.Shift

/-!
# Starting afresh

Between two pieces a lexer remembers nothing but where it stands. Reading that starts afresh behind
a token, or behind a character that is reported, goes on as if it had read all that stands in front:
what it finds is the rest of the scan, once it is moved to where it belongs.
-/

namespace LoxTokens

theorem LexError.start_shift (k : Shift) (e : LexError) :
    (e.shift k).start = e.start + k.bytes := by
  cases e <;> rfl

variable {source tail : List Char} {ps : List Piece}

/-- Behind the first pieces of a text stands a text of its own. -/
theorem exists_tail_of_pieces_eq {qs : List Piece} (h : pieces source = ps ++ qs) :
    ∃ tail, pieces source = ps ++ pieces tail ∧ source = ps.flatMap Piece.text ++ tail := by
  have hsource := flatMap_text_pieces source
  rw [h, List.flatMap_append] at hsource
  refine ⟨qs.flatMap Piece.text, ?_, hsource.symm⟩
  rw [← eq_pieces_of_pieces_eq_append h]
  exact h

/-- A place where one piece stops is a place between two pieces. -/
theorem exists_pieces_of_mem_located {here : Location} {p : Piece}
    (h : (here, p) ∈ located {} (pieces source)) :
    ∃ ps tail, pieces source = ps ++ pieces tail ∧ source = ps.flatMap Piece.text ++ tail ∧
      Utf8.size (ps.flatMap Piece.text) = (here.after p.text).offset := by
  obtain ⟨qs, rs, hps, rfl⟩ := exists_of_mem_located h
  have hsplit : pieces source = (qs ++ [p]) ++ rs := by
    rw [hps, List.append_assoc, List.singleton_append]
  obtain ⟨tail, hpieces, hsource⟩ := exists_tail_of_pieces_eq hsplit
  refine ⟨qs ++ [p], tail, hpieces, hsource, ?_⟩
  rw [← Location.after_append, Location.offset_after, List.flatMap_append, List.flatMap_singleton,
    Nat.zero_add]

/-- What is found behind the first pieces is what starts there, neither more nor less. -/
theorem shift_eq_filter (h : pieces source = ps ++ pieces tail) :
    (Scan.ofText tail).shift (.behind (ps.flatMap Piece.text)) =
      ⟨(Scan.ofText source).tokens.filter (Utf8.size (ps.flatMap Piece.text) ≤ ·.span.start),
        (Scan.ofText source).errors.filter (Utf8.size (ps.flatMap Piece.text) ≤ ·.start)⟩ := by
  have hne : ∀ p ∈ ps, p.text ≠ [] := fun p => text_ne_nil_of_pieces_eq_append h
  have hstop : (Location.after {} (ps.flatMap Piece.text)).offset =
      Utf8.size (ps.flatMap Piece.text) := by
    rw [Location.offset_after, Nat.zero_add]
  have htokens :
      (tokensFrom {} ps).filter (Utf8.size (ps.flatMap Piece.text) ≤ ·.span.start) = [] := by
    refine List.filter_eq_nil_iff.2 fun t ht hle => ?_
    have hlt := start_lt_of_mem_tokensFrom ht hne
    have hle := of_decide_eq_true hle
    omega
  have herrors :
      (errorsFrom {} ps).filter (Utf8.size (ps.flatMap Piece.text) ≤ ·.start) = [] := by
    refine List.filter_eq_nil_iff.2 fun e he hle => ?_
    have hlt := start_lt_of_mem_errorsFrom he hne
    have hle := of_decide_eq_true hle
    omega
  -- What was in front starts too early, and what was shifted starts behind the front.
  rw [Scan.ofText_eq_append h rfl, List.filter_append, List.filter_append, htokens, herrors,
    List.nil_append, List.nil_append, List.filter_eq_self.2, List.filter_eq_self.2]
  · intro e he
    obtain ⟨f, -, rfl⟩ := List.mem_map.1 he
    rw [LexError.start_shift]
    exact decide_eq_true (Nat.le_add_left _ _)
  · intro t ht
    obtain ⟨u, -, rfl⟩ := List.mem_map.1 ht
    exact decide_eq_true (Nat.le_add_left _ _)

/-- Every place where a token or a reported character stops is a place between two pieces. -/
theorem exists_pieces_of_stop {p : Nat}
    (h : p = 0 ∨ (∃ t ∈ (Scan.ofText source).tokens, t.span.stop = p) ∨
      ∃ c span, .unexpectedCharacter c span ∈ (Scan.ofText source).errors ∧ span.stop = p) :
    ∃ ps tail, pieces source = ps ++ pieces tail ∧ source = ps.flatMap Piece.text ++ tail ∧
      Utf8.size (ps.flatMap Piece.text) = p := by
  rw [Scan.ofText_eq_ofPieces, Scan.ofPieces, flatMap_text_pieces] at h
  rcases h with rfl | ⟨t, ht, rfl⟩ | ⟨c, span, he, rfl⟩
  · exact ⟨[], source, rfl, rfl, rfl⟩
  · rcases List.mem_append.1 ht with ht | ht
    · obtain ⟨here, kind, text, hp, rfl⟩ := mem_tokensFrom_iff.1 ht
      exact exists_pieces_of_mem_located hp
    · obtain rfl := List.mem_singleton.1 ht
      refine ⟨pieces source, [], by simp, by simp [flatMap_text_pieces], ?_⟩
      have hend : (Location.after {} source).offset = 0 + Utf8.size source :=
        Location.offset_after {} source
      rw [flatMap_text_pieces, Token.endAt, Token.eof, Span.between, hend, Nat.zero_add]
  · obtain ⟨here, hp, rfl⟩ := unexpectedCharacter_mem_errorsFrom_iff.1 he
    exact exists_pieces_of_mem_located hp

/-- Between two lexemes nothing is remembered. Scanning what stands behind a token, or behind a
character that is reported, gives the tokens and the errors that start there or later, in order,
once bytes and lines are counted from the start of the whole text and columns from the start of the
line. -/
theorem scan_restart {source : List Char} {p : Nat}
    (h : p = 0 ∨ (∃ t ∈ (Scan.ofText source).tokens, t.span.stop = p) ∨
      ∃ c span, .unexpectedCharacter c span ∈ (Scan.ofText source).errors ∧ span.stop = p) :
    ∃ front back, Utf8.cut? source p = some (front, back) ∧
      (Scan.ofText back).shift ⟨p, lineBehind front - 1, columnBehind front - 1⟩ =
        ⟨(Scan.ofText source).tokens.filter (p ≤ ·.span.start),
          (Scan.ofText source).errors.filter (p ≤ ·.start)⟩ := by
  obtain ⟨ps, tail, hpieces, hsource, rfl⟩ := exists_pieces_of_stop h
  exact ⟨_, tail, Utf8.cut?_eq_some_iff.2 ⟨hsource, rfl⟩, shift_eq_filter hpieces⟩

/-- Behind a string over two lines reading goes on in the second column of the second line. -/
theorem scan_restart_behind_string :
    (∃ t ∈ (Scan.ofText ['"', '\n', '"', '@', '\n', '"']).tokens, t.span.stop = 3) ∧
      (Scan.ofText ['@', '\n', '"']).shift ⟨3, 1, 1⟩ =
        ⟨[⟨.eof, "", none, 3, ⟨6, 6, 3, 2⟩⟩],
          [.unexpectedCharacter '@' ⟨3, 4, 2, 2⟩,
            .unterminatedString ⟨5, 6, 3, 1⟩ ⟨6, 6, 3, 2⟩]⟩ := by
  have h : ∃ t ∈ (Scan.ofText ['"', '\n', '"', '@', '\n', '"']).tokens, t.span.stop = 3 := by
    decide +kernel
  refine ⟨h, ?_⟩
  obtain ⟨front, back, hcut, hshift⟩ := scan_restart (Or.inr (Or.inl h))
  obtain ⟨rfl, rfl⟩ := Prod.mk.inj (Option.some.inj hcut)
  exact hshift.trans (by decide +kernel)

end LoxTokens
