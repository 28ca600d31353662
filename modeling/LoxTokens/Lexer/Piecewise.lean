import LoxTokens.Lexer.Basic
import LoxTokens.Scan

/-!
# Lexemes and pieces

A lexer looks ahead one character at a time, and a piece is cut off the text that is left as a
whole. Both end at the same character: reading a lexeme is passing the first piece.
-/

namespace LoxTokens.Lexer

/-- Start a lexeme and read on over a number of characters. -/
def reach (l : Lexer) (n : Nat) : Lexer := l.begin.moveTo (l.cursor.forward n)

/-- Read on over a piece and record its error. -/
def pass (l : Lexer) (p : Piece) : Lexer :=
  { l.reach p.text.length with met := (p.error? l.cursor.location).toList ++ l.met }

/-- Take a piece for the next lexeme. -/
def readPiece (l : Lexer) (p : Piece) : Option Token × Lexer :=
  (p.token? l.cursor.location, l.pass p)

@[simp] theorem cursor_reach (l : Lexer) (n : Nat) : (l.reach n).cursor = l.cursor.forward n := rfl

@[simp] theorem start_reach (l : Lexer) (n : Nat) : (l.reach n).start = l.cursor.location := rfl

@[simp] theorem cursor_pass (l : Lexer) (p : Piece) :
    (l.pass p).cursor = l.cursor.forward p.text.length := rfl

/-- The lexeme is what has been read since it was started. -/
@[simp] theorem lexeme_reach (l : Lexer) (n : Nat) :
    (l.reach n).lexeme = l.cursor.rest.take n := by
  have h : (l.cursor.forward n).sliceFrom? l.cursor.location.offset = some (l.cursor.rest.take n) :=
    l.cursor.sliceFrom?_forward n
  rw [lexeme, cursor_reach, start_reach, h, Option.getD_some]

@[simp] theorem span_reach (l : Lexer) (n : Nat) :
    (l.reach n).span =
      Span.between l.cursor.location (l.cursor.location.after (l.cursor.rest.take n)) := by
  rw [span, start_reach, cursor_reach, Cursor.location_forward]

@[simp] theorem line_reach (l : Lexer) (n : Nat) :
    (l.reach n).line = (l.cursor.location.after (l.cursor.rest.take n)).line := by
  rw [line, cursor_reach, Cursor.location_forward]

/-- Wherever a lexeme is left, it reaches as far as its cursor. -/
theorem moveTo_forward (l : Lexer) (k m n : Nat) :
    (l.reach k).moveTo ((l.cursor.forward m).forward n) = l.reach (m + n) := by
  rw [Cursor.forward_forward]
  rfl

theorem moveTo_eatWhile (l : Lexer) (k n : Nat) (p : Char → Bool) :
    (l.reach k).moveTo ((l.cursor.forward n).eatWhile p) =
      l.reach (n + ((l.cursor.rest.drop n).takeWhile p).length) := by
  rw [Cursor.eatWhile_eq_forward, moveTo_forward, Cursor.rest_forward]

section

variable {l : Lexer} {n : Nat} {text : List Char}

/-- A token is passed by reading its text, and made of that text. -/
theorem readPiece_token {kind : Kind} (hn : text.length = n) (h : text <+: l.cursor.rest) :
    l.readPiece (.token kind text) =
      (some ((l.reach n).token kind (Literal.ofLexeme kind text)), l.reach n) := by
  subst hn
  have ht : l.cursor.rest.take text.length = text := (List.prefix_iff_eq_take.1 h).symm
  rw [token, lexeme_reach, span_reach, line_reach, ht]
  rfl

/-- A gap is passed by reading its text. -/
theorem readPiece_gap (hn : text.length = n) : l.readPiece (.gap text) = (none, l.reach n) := by
  subst hn
  rfl

theorem mark_reach {s : Symbol} (hn : s.spelling.length = n) (h : s.spelling <+: l.cursor.rest) :
    (l.reach n).mark s = l.readPiece (.token (.symbol s) s.spelling) :=
  (readPiece_token hn h).symm

end

section

variable {l : Lexer} {c : Char} {cs : List Char}

theorem rest_forward_one (h : l.cursor.rest = c :: cs) : (l.cursor.forward 1).rest = cs := by
  rw [Cursor.rest_forward, h]
  rfl

/-- A symbol that no longer one starts with. -/
theorem mark_eq_readPiece {s : Symbol} (h : l.cursor.rest = c :: cs) (hs : s.spelling = [c])
    (ha : ∀ t : Symbol, t.spelling ≠ [c, '=']) (hc : c ≠ '/') :
    (l.reach 1).mark s = l.readPiece (.first c cs) := by
  have hp : s.spelling <+: l.cursor.rest := ⟨cs, by rw [hs, h]; rfl⟩
  rw [Piece.first_of_symbol? (Piece.symbol?_of_alone hs ha cs) fun hh => hc hh.1]
  exact mark_reach (by rw [hs]; rfl) hp

/-- Two symbols that differ by an equals sign. -/
theorem operator_eq_readPiece {withEqual alone : Symbol} (h : l.cursor.rest = c :: cs)
    (hw : withEqual.spelling = [c, '=']) (ha : alone.spelling = [c]) (hc : c ≠ '/') :
    (l.reach 1).operator withEqual alone = l.readPiece (.first c cs) := by
  rw [Piece.first_of_symbol? (Piece.symbol?_of_pair hw ha cs) fun hh => hc hh.1, operator,
    cursor_reach, Cursor.matchChar_eq, rest_forward_one h]
  by_cases hd : cs.head? = some '='
  · obtain ⟨tail, ht⟩ := List.head?_eq_some_iff.1 hd
    have hp : withEqual.spelling <+: l.cursor.rest := ⟨tail, by rw [hw, h, ht]; rfl⟩
    simp only [hd, if_true]
    exact mark_reach (by rw [hw]) hp
  · have hp : alone.spelling <+: l.cursor.rest := ⟨cs, by rw [ha, h]; rfl⟩
    simp only [hd, if_false, Bool.false_eq_true]
    exact mark_reach (by rw [ha]; rfl) hp

/-- A slash alone is a symbol, and two of them start a comment. -/
theorem slash_eq_readPiece (h : l.cursor.rest = '/' :: cs) :
    (l.reach 1).slash = l.readPiece (.first '/' cs) := by
  rw [slash, cursor_reach, Cursor.matchChar_eq, rest_forward_one h]
  by_cases hd : cs.head? = some '/'
  · obtain ⟨tail, rfl⟩ := List.head?_eq_some_iff.1 hd
    have hf : Piece.first '/' ('/' :: tail) = .gap ('/' :: '/' :: tail.takeWhile (· != '\n')) :=
      rfl
    rw [hf, readPiece_gap rfl]
    simp only [List.head?_cons, if_true]
    refine congrArg (Prod.mk none) ((l.moveTo_eatWhile 1 2 (· != '\n')).trans ?_)
    rw [h, Nat.add_comm]
    rfl
  · have hs := Piece.symbol?_of_alone (c := '/') (s := .slash) rfl
      (by intro t; cases t <;> decide) cs
    have hp : Symbol.slash.spelling <+: l.cursor.rest := ⟨cs, h.symm⟩
    rw [Piece.first_of_symbol? hs fun hh => hd hh.2]
    simp only [hd, if_false, Bool.false_eq_true]
    exact mark_reach rfl hp

/-- A quote opens a string, which the next quote closes. -/
theorem string_eq_readPiece_of_mem (h : l.cursor.rest = '"' :: cs) (hq : '"' ∈ cs) :
    (l.reach 1).string = l.readPiece (.first '"' cs) := by
  obtain ⟨body, tail, rfl, hb⟩ := List.eq_append_cons_of_mem hq
  have hf : Piece.first '"' (body ++ '"' :: tail) = .token .string ('"' :: body ++ ['"']) :=
    Piece.quoted_append hb tail
  have he : (l.reach 1).moveTo ((l.reach 1).cursor.eatWhile (· != '"')) =
      l.reach (1 + body.length) := by
    rw [cursor_reach, moveTo_eatWhile, h, List.drop_one, List.tail_cons,
      Piece.takeWhile_bne_append hb]
  have hend : (l.reach (1 + body.length)).cursor.atEnd = false := by
    simp [Cursor.atEnd, h, Nat.add_comm]
  have hm : (l.reach (1 + body.length)).moveTo (l.reach (1 + body.length)).cursor.advance.2 =
      l.reach (1 + body.length + 1) := l.moveTo_forward _ (1 + body.length) 1
  have hn : ('"' :: body ++ ['"']).length = 1 + body.length + 1 := by simp; omega
  have hp : '"' :: body ++ ['"'] <+: l.cursor.rest := ⟨tail, by simp [h]⟩
  have hl : l.cursor.rest.take (1 + body.length + 1) = '"' :: body ++ ['"'] := by
    rw [← hn]
    exact (List.prefix_iff_eq_take.1 hp).symm
  have hv : Utf8.slice? ('"' :: body ++ ['"']) 1 (Utf8.size ('"' :: body ++ ['"']) - 1) =
      some body :=
    Utf8.slice?_eq_some_iff.2 ⟨['"'], ['"'], rfl, rfl, by simp; rfl⟩
  have ho : Literal.ofLexeme .string ('"' :: body ++ ['"']) =
      some (.text (String.ofList body)) := by
    simp [Literal.ofLexeme]
  rw [hf, readPiece_token hn hp, ho]
  simp only [string, he, hend, hm, lexeme_reach, hl, hv, Option.getD_some, Bool.false_eq_true,
    if_false]

/-- Without another quote the string runs to the end of the text. -/
theorem string_eq_readPiece_of_not_mem (h : l.cursor.rest = '"' :: cs) (hq : '"' ∉ cs) :
    (l.reach 1).string = l.readPiece (.first '"' cs) := by
  have hf : Piece.first '"' cs = .unclosed ('"' :: cs) := Piece.quoted_of_not_mem hq
  have he : (l.reach 1).moveTo ((l.reach 1).cursor.eatWhile (· != '"')) =
      l.reach ('"' :: cs).length := by
    rw [cursor_reach, moveTo_eatWhile, h, List.drop_one, List.tail_cons,
      Piece.takeWhile_bne_of_not_mem hq, Nat.add_comm]
    rfl
  have hend : (l.reach ('"' :: cs).length).cursor.atEnd = true := by
    simp [Cursor.atEnd, h]
  have hl : l.cursor.rest.take ('"' :: cs).length = '"' :: cs := by
    rw [h, List.take_length]
  have ho : { (l.reach ('"' :: cs).length).span with
        stop := (l.reach ('"' :: cs).length).start.offset + 1 } =
      Span.between l.cursor.location (l.cursor.location.next '"') := by
    rw [span_reach]
    rfl
  simp only [string, he, hend, if_true, hf]
  rw [ho, cursor_reach, Cursor.location_forward, hl]
  rfl

/-- The text of a numeral is read as a number. -/
theorem ofNumeral?_numeral {c : Char} (hc : Text.isDigit c = true) (cs : List Char) :
    Binary64.ofNumeral? (Piece.numeral (c :: cs)) =
      some (Binary64.ofNumeral (Piece.numeral (c :: cs))) := by
  have hd (t : List Char) : ∀ d ∈ t.takeWhile Text.isDigit, Text.isDigit d = true :=
    List.all_eq_true.1 List.all_takeWhile
  have hz (t : List Char) : (t.takeWhile Text.isDigit).count '.' = 0 :=
    List.count_eq_zero.2 fun hm => absurd (hd t _ hm) (by decide)
  have hany : (Piece.numeral (c :: cs)).any Text.isDigit = true := by
    obtain ⟨tail, ht⟩ := Piece.exists_numeral_eq_cons hc cs
    rw [ht, List.any_cons, hc, Bool.true_or]
  have hall : (Piece.numeral (c :: cs)).all (fun d => Text.isDigit d || d == '.') = true ∧
      (Piece.numeral (c :: cs)).count '.' ≤ 1 := by
    rcases Piece.numeral_cases (c :: cs) with ⟨hn, -⟩ | ⟨part, -, -, hn⟩
    · rw [hn, hz]
      exact ⟨List.all_eq_true.2 fun d hm => by rw [hd _ d hm, Bool.true_or], Nat.zero_le 1⟩
    · rw [hn, List.count_append, hz, List.count_cons_self, hz]
      refine ⟨List.all_eq_true.2 fun d hm => ?_, Nat.le_refl 1⟩
      rcases List.mem_append.1 hm with hm | hm
      · rw [hd _ d hm, Bool.true_or]
      · rcases List.mem_cons.1 hm with rfl | hm
        · rfl
        · rw [hd _ d hm, Bool.true_or]
  rw [Binary64.ofNumeral?, if_pos ⟨hall.1, hany, hall.2⟩]

/-- Looking two characters ahead finds a point with a digit behind it. -/
theorem pointed_iff (k : Cursor) :
    (k.current == '.' && Text.isDigit (k.peek 1)) = true ↔
      ∃ part, k.rest = '.' :: part ∧ part.takeWhile Text.isDigit ≠ [] := by
  rw [Cursor.current, Cursor.peek_eq_getD, Cursor.peek_eq_getD]
  constructor
  · intro h
    obtain ⟨hp, hd⟩ := Bool.and_eq_true_iff.1 h
    rcases hr : k.rest with _ | ⟨p, _ | ⟨d, part⟩⟩
    · rw [hr] at hp
      exact absurd hp (by decide)
    · rw [hr, List.getD_cons_succ, List.getD_nil] at hd
      exact absurd hd (by decide)
    · rw [hr] at hp hd
      obtain rfl : p = '.' := by simpa using hp
      refine ⟨d :: part, rfl, ?_⟩
      rw [List.takeWhile_cons_of_pos (by exact hd)]
      exact List.cons_ne_nil _ _
  · rintro ⟨part, hr, hp⟩
    rw [hr]
    cases part with
    | nil => exact absurd rfl hp
    | cons d part =>
      by_cases hd : Text.isDigit d = true
      · exact Bool.and_eq_true_iff.2 ⟨rfl, hd⟩
      · exact absurd (List.takeWhile_cons_of_neg hd) hp

/-- Digits are read on, and a point with them if a digit follows it. -/
theorem number_eq_readPiece (h : l.cursor.rest = c :: cs) (hc : Text.isDigit c = true) :
    (l.reach 1).number = l.readPiece (.token .number (Piece.numeral (c :: cs))) := by
  obtain ⟨k, hk⟩ : ∃ k, ((c :: cs).takeWhile Text.isDigit).length = k := ⟨_, rfl⟩
  have hw : (l.reach 1).cursor.eatWhile Text.isDigit = l.cursor.forward k := by
    rw [cursor_reach, Cursor.eatWhile_eq_forward, rest_forward_one h, Cursor.forward_forward, ← hk,
      List.takeWhile_cons_of_pos hc, List.length_cons, Nat.add_comm]
  have hrest : (l.cursor.forward k).rest = (c :: cs).dropWhile Text.isDigit := by
    rw [Cursor.rest_forward, h, ← hk]
    exact Piece.drop_length_takeWhile _ _
  have hp : Piece.numeral (c :: cs) <+: l.cursor.rest := h ▸ Piece.numeral_isPrefix (c :: cs)
  have hv : Literal.ofLexeme .number (Piece.numeral (c :: cs)) =
      some (.number ((Binary64.ofNumeral? (Piece.numeral (c :: cs))).getD Binary64.nan)) := by
    rw [ofNumeral?_numeral hc, Option.getD_some, Literal.ofLexeme]
  have hl : l.cursor.rest.take (Piece.numeral (c :: cs)).length = Piece.numeral (c :: cs) :=
    (List.prefix_iff_eq_take.1 hp).symm
  have hm : (l.reach 1).moveTo
      (if (l.cursor.forward k).current == '.' && Text.isDigit ((l.cursor.forward k).peek 1)
        then (l.cursor.forward k).advance.2.eatWhile Text.isDigit else l.cursor.forward k) =
      l.reach (Piece.numeral (c :: cs)).length := by
    rcases Piece.numeral_cases (c :: cs) with ⟨hn, hno⟩ | ⟨part, hd, hne, hn⟩
    · rw [if_neg, hn, hk]
      · rfl
      · rw [pointed_iff, hrest]
        rintro ⟨part, hr, hne⟩
        exact hne (hno part hr)
    · have ha : (l.cursor.forward k).advance.2 = l.cursor.forward (k + 1) :=
        l.cursor.forward_forward k 1
      have hpart : l.cursor.rest.drop (k + 1) = part := by
        rw [← Cursor.rest_forward, ← Cursor.forward_forward, Cursor.rest_forward, hrest, hd]
        rfl
      rw [if_pos ((pointed_iff _).2 ⟨part, by rw [hrest, hd], hne⟩), ha, moveTo_eatWhile, hpart,
        hn, List.length_append, hk, List.length_cons, Nat.add_assoc, Nat.add_comm 1]
  rw [readPiece_token rfl hp, hv]
  simp only [number, hw, hm, lexeme_reach, hl]

/-- Letters and digits are read on. -/
theorem word_eq_readPiece (h : l.cursor.rest = c :: cs) :
    (l.reach 1).word =
      l.readPiece (.token (Kind.ofWord (c :: cs.takeWhile Text.isWordChar))
        (c :: cs.takeWhile Text.isWordChar)) := by
  have hp : c :: cs.takeWhile Text.isWordChar <+: l.cursor.rest := by
    rw [h]
    exact List.cons_prefix_cons.2 ⟨rfl, List.takeWhile_prefix _⟩
  have hn : (c :: cs.takeWhile Text.isWordChar).length =
      1 + (cs.takeWhile Text.isWordChar).length := by
    rw [List.length_cons, Nat.add_comm]
  have he : (l.reach 1).moveTo ((l.reach 1).cursor.eatWhile Text.isWordChar) =
      l.reach (1 + (cs.takeWhile Text.isWordChar).length) := by
    rw [cursor_reach, moveTo_eatWhile, h]
    rfl
  have hl : l.cursor.rest.take (1 + (cs.takeWhile Text.isWordChar).length) =
      c :: cs.takeWhile Text.isWordChar := by
    rw [← hn]
    exact (List.prefix_iff_eq_take.1 hp).symm
  rw [readPiece_token hn hp]
  simp only [word, he, lexeme_reach, hl, Literal.ofLexeme_ofWord]

theorem stray_eq_readPiece (h : l.cursor.rest = c :: cs) :
    (l.reach 1).stray c = l.readPiece (.stray c) := by
  rw [stray, span_reach, h]
  rfl

/-- Reading a lexeme is taking the first piece of the text that is left. -/
theorem readLexeme_begin (h : l.cursor.rest = c :: cs) :
    l.begin.readLexeme = l.readPiece (.first c cs) := by
  have ha : l.begin.cursor.advance = (c, l.cursor.forward 1) :=
    Prod.ext (Cursor.current_of_rest h) rfl
  have hm : l.begin.moveTo (l.cursor.forward 1) = l.reach 1 := rfl
  simp only [readLexeme, ha, hm]
  split
  any_goals exact mark_eq_readPiece h rfl (by intro t; cases t <;> decide) (by decide)
  any_goals exact operator_eq_readPiece h rfl rfl (by decide)
  · exact slash_eq_readPiece h
  · by_cases hq : '"' ∈ cs
    · exact string_eq_readPiece_of_mem h hq
    · exact string_eq_readPiece_of_not_mem h hq
  · rw [Piece.first_of_isSpace rfl]
    exact (readPiece_gap (n := 1) rfl).symm
  · -- the remaining characters start no symbol, no comment and no string
    have hs (s : Symbol) (tail : List Char) : s.spelling ≠ c :: tail := by
      cases s <;> rintro ⟨⟩ <;> contradiction
    by_cases hb : Text.isBlank c = true
    · have hsp : Text.isSpace c = true := by rw [Text.isSpace, hb, Bool.or_true]
      rw [if_pos hb, Piece.first_of_isSpace hsp]
      exact (readPiece_gap (n := 1) rfl).symm
    rw [if_neg hb]
    by_cases hd : Text.isDigit c = true
    · rw [if_pos hd, Piece.first_of_isDigit hd]
      exact number_eq_readPiece h hd
    rw [if_neg hd]
    by_cases hl : Text.isLetter c = true
    · rw [if_pos hl, Piece.first_of_isLetter hl]
      exact word_eq_readPiece h
    rw [if_neg hl]
    have hsp : Text.isSpace c = false := by
      rw [Text.isSpace, Bool.eq_false_iff.2 hb, Bool.or_false, beq_eq_false_iff_ne]
      assumption
    have hq : c ≠ '"' := by assumption
    rw [Piece.first_eq_stray hsp hq (Bool.eq_false_iff.2 hd) (Bool.eq_false_iff.2 hl) hs]
    exact stray_eq_readPiece h

end

end LoxTokens.Lexer
