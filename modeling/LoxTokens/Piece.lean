import LoxTokens.Text.Class
import LoxTokens.Token.Kind

/-!
# Pieces of source text

A source text falls apart into pieces: tokens, gaps between them, characters that start nothing,
and possibly a string that is never closed. Where one piece ends depends only on the text that
follows, never on where it stands or on what came before it. The pieces of a text concatenate to
the text, and none of them is empty.
-/

namespace LoxTokens

/-- A piece of source text. -/
inductive Piece where
  /-- The text of a token. -/
  | token (kind : Kind) (text : List Char)
  /-- A blank, a newline or a comment. -/
  | gap (text : List Char)
  /-- A character that starts nothing. -/
  | stray (c : Char)
  /-- A quote that no other quote follows, and all the text behind it. -/
  | unclosed (text : List Char)
  deriving DecidableEq, Repr

namespace Piece

/-- The source text of a piece. -/
def text : Piece → List Char
  | token _ text => text
  | gap text => text
  | stray c => [c]
  | unclosed text => text

/-- The longest numeral at the front of a text: digits, and a point if digits follow it too. -/
def numeral (cs : List Char) : List Char :=
  let whole := cs.takeWhile Text.isDigit
  match cs.dropWhile Text.isDigit with
  | '.' :: part =>
    if (part.takeWhile Text.isDigit).isEmpty then whole
    else whole ++ '.' :: part.takeWhile Text.isDigit
  | _ => whole

/-- The string that a quote opens before a text, closed by the next quote. -/
def quoted (cs : List Char) : Piece :=
  let body := cs.takeWhile (· != '"')
  if body.length < cs.length then token .string ('"' :: body ++ ['"'])
  else unclosed ('"' :: cs)

/-- The longest symbol at the front of a text. -/
def symbol? : List Char → Option Symbol
  | c :: d :: _ => (Symbol.ofSpelling? [c, d]).or (Symbol.ofSpelling? [c])
  | [c] => Symbol.ofSpelling? [c]
  | [] => none

/-- The first piece of a text that starts with the given character. -/
def first (c : Char) (cs : List Char) : Piece :=
  if Text.isSpace c then gap [c]
  else if c = '"' then quoted cs
  else if Text.isDigit c then token .number (numeral (c :: cs))
  else if Text.isLetter c then
    let word := c :: cs.takeWhile Text.isWordChar
    token (Kind.ofWord word) word
  else if c = '/' ∧ cs.head? = some '/' then gap (c :: cs.takeWhile (· != '\n'))
  else match symbol? (c :: cs) with
    | some s => token (.symbol s) s.spelling
    | none => stray c

/-- The first piece of a text that is not empty. -/
def first? : List Char → Option Piece
  | [] => none
  | c :: cs => some (first c cs)

/-- Behind the longest front that passes a test stands what is left of it. -/
theorem drop_length_takeWhile (p : Char → Bool) (cs : List Char) :
    cs.drop (cs.takeWhile p).length = cs.dropWhile p := by
  have h := congrArg (List.drop (cs.takeWhile p).length)
    (List.takeWhile_append_dropWhile (p := p) (l := cs))
  rw [List.drop_left] at h
  exact h.symm

/-- A numeral takes the digits, and the point and the digits behind it if there are any. -/
theorem numeral_cases (cs : List Char) :
    (numeral cs = cs.takeWhile Text.isDigit ∧
      ∀ part, cs.dropWhile Text.isDigit = '.' :: part → part.takeWhile Text.isDigit = []) ∨
    ∃ part, cs.dropWhile Text.isDigit = '.' :: part ∧ part.takeWhile Text.isDigit ≠ [] ∧
      numeral cs = cs.takeWhile Text.isDigit ++ '.' :: part.takeWhile Text.isDigit := by
  unfold numeral
  split
  · rename_i part hd
    split
    · rename_i he
      refine Or.inl ⟨rfl, fun other ho => ?_⟩
      obtain rfl : part = other := by simpa using hd.symm.trans ho
      exact List.isEmpty_iff.1 he
    · rename_i he
      exact Or.inr ⟨part, hd, fun hh => he (List.isEmpty_iff.2 hh), rfl⟩
  · rename_i hd
    exact Or.inl ⟨rfl, fun part hp => absurd hp (hd part)⟩

/-- A numeral is a front of its text. -/
theorem numeral_isPrefix (cs : List Char) : numeral cs <+: cs := by
  have hw : cs.takeWhile Text.isDigit ++ cs.dropWhile Text.isDigit = cs :=
    List.takeWhile_append_dropWhile
  rcases numeral_cases cs with ⟨hn, -⟩ | ⟨part, hd, -, hn⟩
  · exact ⟨_, by rw [hn, hw]⟩
  · refine ⟨part.dropWhile Text.isDigit, ?_⟩
    rw [hn, List.append_assoc, List.cons_append, List.takeWhile_append_dropWhile, ← hd, hw]

/-- A numeral starts with the digit that its text starts with. -/
theorem exists_numeral_eq_cons {c : Char} (h : Text.isDigit c = true) (cs : List Char) :
    ∃ tail, numeral (c :: cs) = c :: tail := by
  rcases numeral_cases (c :: cs) with ⟨hn, -⟩ | ⟨part, -, -, hn⟩ <;>
    rw [List.takeWhile_cons_of_pos h] at hn <;> exact ⟨_, hn⟩

private theorem bne_of_not_mem {q : Char} {body : List Char} (h : q ∉ body) :
    ∀ c ∈ body, (c != q) = true := by
  intro c hc
  have hne : c ≠ q := by
    rintro rfl
    exact h hc
  simpa using hne

/-- The text up to a character ends at the first one. -/
theorem takeWhile_bne_append {q : Char} {body : List Char} (h : q ∉ body) (tail : List Char) :
    (body ++ q :: tail).takeWhile (· != q) = body := by
  rw [List.takeWhile_append_of_pos (bne_of_not_mem h), List.takeWhile_cons_of_neg (by simp),
    List.append_nil]

/-- The text up to a character lacks it. -/
theorem not_mem_takeWhile_bne (q : Char) (cs : List Char) : q ∉ cs.takeWhile (· != q) := by
  intro hq
  have hne := List.all_eq_true.1 List.all_takeWhile q hq
  simp at hne

/-- Behind the text up to a character stands that character, or nothing. -/
theorem dropWhile_bne (q : Char) (cs : List Char) :
    cs.dropWhile (· != q) = [] ∨ ∃ tail, cs.dropWhile (· != q) = q :: tail := by
  induction cs with
  | nil => exact Or.inl rfl
  | cons c cs ih =>
    by_cases hc : c = q
    · subst hc
      exact Or.inr ⟨cs, List.dropWhile_cons_of_neg (by simp)⟩
    · rw [List.dropWhile_cons_of_pos (by simpa using hc)]
      exact ih

/-- The text up to a character that it lacks is all of it. -/
theorem takeWhile_bne_of_not_mem {q : Char} {cs : List Char} (h : q ∉ cs) :
    cs.takeWhile (· != q) = cs := by
  have hw : (cs ++ []).takeWhile (· != q) = cs ++ [].takeWhile (· != q) :=
    List.takeWhile_append_of_pos (bne_of_not_mem h)
  rwa [List.takeWhile_nil, List.append_nil] at hw

/-- A quote closes the string that it is the next one in. -/
theorem quoted_append {body : List Char} (h : '"' ∉ body) (tail : List Char) :
    quoted (body ++ '"' :: tail) = token .string ('"' :: body ++ ['"']) := by
  simp only [quoted, takeWhile_bne_append h]
  rw [if_pos (by simp)]

/-- Without another quote the string is not closed. -/
theorem quoted_of_not_mem {cs : List Char} (h : '"' ∉ cs) : quoted cs = unclosed ('"' :: cs) := by
  simp only [quoted, takeWhile_bne_of_not_mem h]
  rw [if_neg (Nat.lt_irrefl _)]

/-- The longest symbol is a front of its text. -/
theorem spelling_prefix_of_symbol? {cs : List Char} {s : Symbol} (h : symbol? cs = some s) :
    s.spelling <+: cs := by
  unfold symbol? at h
  split at h
  · rename_i c d rest
    cases h2 : Symbol.ofSpelling? [c, d] with
    | some t =>
      rw [h2] at h
      obtain rfl : t = s := by simpa using h
      rw [Symbol.spelling_of_ofSpelling? h2]
      exact ⟨rest, rfl⟩
    | none =>
      rw [h2, Option.none_or] at h
      rw [Symbol.spelling_of_ofSpelling? h]
      exact ⟨d :: rest, rfl⟩
  · have hs := Symbol.spelling_of_ofSpelling? h
    simp only [hs, List.prefix_rfl]
  · cases h

/-- No symbol at the front of a text is longer than the one that is read. -/
theorem exists_symbol?_of_prefix {c : Char} {cs : List Char} {s : Symbol}
    (h : s.spelling <+: c :: cs) :
    ∃ t, symbol? (c :: cs) = some t ∧ s.spelling.length ≤ t.spelling.length := by
  obtain ⟨rest, hr⟩ := h
  have hle := s.length_spelling_le
  rcases hs : s.spelling with _ | ⟨d, _ | ⟨e, _ | ⟨f, tail⟩⟩⟩
  · exact absurd hs s.spelling_ne_nil
  · rw [hs, List.singleton_append, List.cons.injEq] at hr
    obtain ⟨rfl, rfl⟩ := hr
    have hd := Symbol.ofSpelling?_eq_some_iff.2 hs
    have hlen : [d].length ≤ s.spelling.length := Nat.le_of_eq (congrArg List.length hs.symm)
    cases rest with
    | nil => exact ⟨s, hd, hlen⟩
    | cons e rest =>
      rw [symbol?, hd]
      cases he : Symbol.ofSpelling? [d, e] with
      | none => exact ⟨s, rfl, hlen⟩
      | some t => exact ⟨t, rfl, by rw [Symbol.spelling_of_ofSpelling? he]; simp⟩
  · rw [hs, List.cons_append, List.singleton_append, List.cons.injEq] at hr
    obtain ⟨rfl, rfl⟩ := hr
    have hlen : [d, e].length ≤ s.spelling.length := Nat.le_of_eq (congrArg List.length hs.symm)
    exact ⟨s, by rw [symbol?, Symbol.ofSpelling?_eq_some_iff.2 hs]; rfl, hlen⟩
  · rw [hs] at hle
    simp at hle

/-- A symbol starts with a character of no class. -/
theorem classless_of_spelling {s : Symbol} {c : Char} {tail : List Char}
    (h : s.spelling = c :: tail) :
    Text.isSpace c = false ∧ c ≠ '"' ∧ Text.isDigit c = false ∧ Text.isLetter c = false := by
  cases s <;> (cases h; decide)

/-- The character that a symbol of a text starts with is the first of the text. -/
theorem head_of_symbol? {c : Char} {cs : List Char} {s : Symbol}
    (h : symbol? (c :: cs) = some s) : ∃ tail, s.spelling = c :: tail := by
  obtain ⟨rest, hr⟩ := spelling_prefix_of_symbol? h
  cases hs : s.spelling with
  | nil => exact absurd hs s.spelling_ne_nil
  | cons d tail =>
    rw [hs, List.cons_append, List.cons.injEq] at hr
    exact ⟨tail, by rw [hr.1]⟩

/-- A symbol that no longer one starts with is read whatever follows it. -/
theorem symbol?_of_alone {c : Char} {s : Symbol} (h : s.spelling = [c])
    (ha : ∀ t : Symbol, t.spelling ≠ [c, '=']) (cs : List Char) :
    symbol? (c :: cs) = some s := by
  have hs := Symbol.ofSpelling?_eq_some_iff.2 h
  cases cs with
  | nil => exact hs
  | cons d cs =>
    have hn : Symbol.ofSpelling? [c, d] = none := by
      refine Symbol.ofSpelling?_eq_none_iff.2 fun t ht => ?_
      obtain rfl := Symbol.eq_of_spelling_pair ht
      exact ha t ht
    rw [symbol?, hn, Option.none_or, hs]

/-- Of two symbols that differ by an equals sign the longer one is read if that sign follows. -/
theorem symbol?_of_pair {c : Char} {withEqual alone : Symbol} (hw : withEqual.spelling = [c, '='])
    (ha : alone.spelling = [c]) (cs : List Char) :
    symbol? (c :: cs) = some (if cs.head? = some '=' then withEqual else alone) := by
  have hs := Symbol.ofSpelling?_eq_some_iff.2 ha
  cases cs with
  | nil => exact hs
  | cons d cs =>
    by_cases hd : d = '='
    · rw [symbol?, hd, Symbol.ofSpelling?_eq_some_iff.2 hw, List.head?_cons, if_pos rfl]
      rfl
    · have hn : Symbol.ofSpelling? [c, d] = none :=
        Symbol.ofSpelling?_eq_none_iff.2 fun t ht => hd (Symbol.eq_of_spelling_pair ht)
      rw [symbol?, hn, Option.none_or, hs, List.head?_cons, if_neg (by simpa using hd)]

/-- A text that starts with a symbol and no comment has that symbol as its first piece. -/
theorem first_of_symbol? {c : Char} {cs : List Char} {s : Symbol}
    (h : symbol? (c :: cs) = some s) (hc : ¬ (c = '/' ∧ cs.head? = some '/')) :
    first c cs = token (.symbol s) s.spelling := by
  obtain ⟨tail, ht⟩ := head_of_symbol? h
  obtain ⟨h1, h2, h3, h4⟩ := classless_of_spelling ht
  simp only [first, h1, h2, h3, h4, hc, h, Bool.false_eq_true, if_false]

/-- Every blank and every newline is a gap of its own. -/
theorem first_of_isSpace {c : Char} (h : Text.isSpace c = true) (cs : List Char) :
    first c cs = gap [c] := by
  rw [first, if_pos h]

theorem first_quote (cs : List Char) : first '"' cs = quoted cs := rfl

/-- A digit starts a numeral. -/
theorem first_of_isDigit {c : Char} (h : Text.isDigit c = true) (cs : List Char) :
    first c cs = token .number (numeral (c :: cs)) := by
  have hs := Text.isSpace_of_isDigit h
  have hq : c ≠ '"' := Text.ne_of_test h rfl
  simp only [first, hs, hq, h, Bool.false_eq_true, if_false, if_true]

/-- A letter starts a word. -/
theorem first_of_isLetter {c : Char} (h : Text.isLetter c = true) (cs : List Char) :
    first c cs = token (Kind.ofWord (c :: cs.takeWhile Text.isWordChar))
      (c :: cs.takeWhile Text.isWordChar) := by
  have hs := Text.isSpace_of_isLetter h
  have hq : c ≠ '"' := Text.ne_of_test h rfl
  have hd := Text.isDigit_of_isLetter h
  simp only [first, hs, hq, hd, h, Bool.false_eq_true, if_false, if_true]

/-- Two slashes start a comment. -/
theorem first_comment (cs : List Char) :
    first '/' ('/' :: cs) = gap ('/' :: '/' :: cs.takeWhile (· != '\n')) := rfl

/-- A character that no symbol starts with starts none. -/
theorem symbol?_eq_none {c : Char} (h : ∀ (s : Symbol) (tail : List Char), s.spelling ≠ c :: tail)
    (cs : List Char) : symbol? (c :: cs) = none := by
  refine Option.eq_none_iff_forall_ne_some.2 fun s hs => ?_
  obtain ⟨tail, ht⟩ := head_of_symbol? hs
  exact h s tail ht

/-- A character of no class that no symbol starts with is a piece of its own. -/
theorem first_eq_stray {c : Char} (hs : Text.isSpace c = false) (hq : c ≠ '"')
    (hd : Text.isDigit c = false) (hl : Text.isLetter c = false)
    (h : ∀ (s : Symbol) (tail : List Char), s.spelling ≠ c :: tail) (cs : List Char) :
    first c cs = stray c := by
  have hc : ¬ (c = '/' ∧ cs.head? = some '/') := by
    rintro ⟨rfl, -⟩
    exact h .slash [] rfl
  simp only [first, hs, hq, hd, hl, hc, symbol?_eq_none h, Bool.false_eq_true, if_false]

/-- What the first piece of a text can be, and what the text starts with then. -/
inductive Opening (c : Char) (cs : List Char) : Piece → Prop where
  | space (hc : Text.isSpace c = true) : Opening c cs (gap [c])
  | closed {body tail : List Char} (hc : c = '"') (hcs : cs = body ++ '"' :: tail)
      (hb : '"' ∉ body) : Opening c cs (token .string ('"' :: body ++ ['"']))
  | unclosed (hc : c = '"') (hcs : '"' ∉ cs) : Opening c cs (unclosed ('"' :: cs))
  | number (hc : Text.isDigit c = true) : Opening c cs (token .number (numeral (c :: cs)))
  | word (hc : Text.isLetter c = true) :
      Opening c cs (token (Kind.ofWord (c :: cs.takeWhile Text.isWordChar))
        (c :: cs.takeWhile Text.isWordChar))
  | comment {tail : List Char} (hc : c = '/') (hcs : cs = '/' :: tail) :
      Opening c cs (gap ('/' :: '/' :: tail.takeWhile (· != '\n')))
  | symbol {s : Symbol} (hs : symbol? (c :: cs) = some s)
      (hc : ¬ (c = '/' ∧ cs.head? = some '/')) : Opening c cs (token (.symbol s) s.spelling)
  | stray (hsp : Text.isSpace c = false) (hq : c ≠ '"') (hd : Text.isDigit c = false)
      (hl : Text.isLetter c = false) (hs : ∀ s : Symbol, s.spelling ≠ [c]) :
      Opening c cs (stray c)

theorem opening_first (c : Char) (cs : List Char) : Opening c cs (first c cs) := by
  by_cases hsp : Text.isSpace c = true
  · rw [first_of_isSpace hsp]
    exact .space hsp
  by_cases hq : c = '"'
  · subst hq
    rw [first_quote]
    by_cases hm : '"' ∈ cs
    · obtain ⟨body, tail, rfl, hb⟩ := List.eq_append_cons_of_mem hm
      rw [quoted_append hb]
      exact .closed rfl rfl hb
    · rw [quoted_of_not_mem hm]
      exact .unclosed rfl hm
  by_cases hd : Text.isDigit c = true
  · rw [first_of_isDigit hd]
    exact .number hd
  by_cases hl : Text.isLetter c = true
  · rw [first_of_isLetter hl]
    exact .word hl
  by_cases hc : c = '/' ∧ cs.head? = some '/'
  · obtain ⟨rfl, hh⟩ := hc
    obtain ⟨tail, rfl⟩ := List.head?_eq_some_iff.1 hh
    rw [first_comment]
    exact .comment rfl rfl
  cases hs : symbol? (c :: cs) with
  | some s =>
    rw [first_of_symbol? hs hc]
    exact .symbol hs hc
  | none =>
    have hno (s : Symbol) : s.spelling ≠ [c] := by
      intro h
      obtain ⟨t, ht, -⟩ := exists_symbol?_of_prefix (h ▸ ⟨cs, rfl⟩ : s.spelling <+: c :: cs)
      rw [hs] at ht
      cases ht
    have hf : first c cs = stray c := by
      simp [first, hsp, hq, hd, hl, hc, hs]
    rw [hf]
    exact .stray (Bool.eq_false_iff.2 hsp) hq (Bool.eq_false_iff.2 hd) (Bool.eq_false_iff.2 hl) hno

/-- The first piece of a text is a front of it. -/
theorem text_first_isPrefix (c : Char) (cs : List Char) : (first c cs).text <+: c :: cs := by
  have h := opening_first c cs
  generalize first c cs = p at h ⊢
  cases h with
  | space => exact ⟨cs, rfl⟩
  | @closed body tail hc hcs =>
    refine ⟨tail, ?_⟩
    rw [hc, hcs, text, List.append_assoc]
    rfl
  | unclosed hc =>
    rw [hc]
    exact List.prefix_rfl
  | number => exact numeral_isPrefix (c :: cs)
  | word => exact List.cons_prefix_cons.2 ⟨rfl, List.takeWhile_prefix _⟩
  | @comment tail hc hcs =>
    rw [hc, hcs]
    exact List.cons_prefix_cons.2 ⟨rfl, List.cons_prefix_cons.2 ⟨rfl, List.takeWhile_prefix _⟩⟩
  | symbol hs => exact spelling_prefix_of_symbol? hs
  | stray => exact ⟨cs, rfl⟩

/-- No piece is empty. -/
theorem text_first_ne_nil (c : Char) (cs : List Char) : (first c cs).text ≠ [] := by
  have h := opening_first c cs
  generalize first c cs = p at h ⊢
  cases h with
  | number hc =>
    obtain ⟨tail, ht⟩ := exists_numeral_eq_cons hc cs
    rw [text, ht]
    exact List.cons_ne_nil c tail
  | @symbol s => exact s.spelling_ne_nil
  | space | closed | unclosed | word | comment | stray => exact List.cons_ne_nil _ _

/-- No piece ends a text. -/
theorem kind_ne_eof_of_first {c : Char} {cs : List Char} {kind : Kind} {text : List Char}
    (h : first c cs = token kind text) : kind ≠ .eof := by
  have ho := opening_first c cs
  generalize first c cs = p at h ho
  rintro rfl
  cases ho with
  | word => exact Kind.ofWord_ne_eof _ (token.inj h).1
  | space | closed | unclosed | number | comment | symbol | stray => cases h

/-- Only a quote without another one behind it is not closed, and it takes all that follows. -/
theorem eq_quote_of_first {c : Char} {cs text : List Char} (h : first c cs = unclosed text) :
    c = '"' ∧ '"' ∉ cs ∧ text = '"' :: cs := by
  have ho := opening_first c cs
  rw [h] at ho
  cases ho with
  | unclosed hc hcs => exact ⟨hc, hcs, rfl⟩

theorem length_drop_first_lt (c : Char) (cs : List Char) :
    ((c :: cs).drop (first c cs).text.length).length < (c :: cs).length := by
  have := List.length_pos_iff.2 (text_first_ne_nil c cs)
  rw [List.length_drop, List.length_cons]
  omega

end Piece

/-- The pieces of a text. -/
def pieces : List Char → List Piece
  | [] => []
  | c :: cs => .first c cs :: pieces ((c :: cs).drop (Piece.first c cs).text.length)
termination_by text => text.length
decreasing_by exact Piece.length_drop_first_lt c cs

@[simp] theorem pieces_nil : pieces [] = [] := by
  rw [pieces]

theorem pieces_cons (c : Char) (cs : List Char) :
    pieces (c :: cs) =
      .first c cs :: pieces ((c :: cs).drop (Piece.first c cs).text.length) := by
  rw [pieces]

/-- Only the empty text has no pieces. -/
theorem eq_nil_of_pieces_eq_nil {text : List Char} (h : pieces text = []) : text = [] := by
  cases text with
  | nil => rfl
  | cons c cs =>
    rw [pieces_cons] at h
    cases h

/-- The first of the pieces of a text is cut off its front, the others off what is left. -/
theorem exists_eq_cons_of_pieces_eq_cons {text : List Char} {p : Piece} {ps : List Piece}
    (h : pieces text = p :: ps) :
    ∃ c cs, text = c :: cs ∧ p = .first c cs ∧ ps = pieces (text.drop p.text.length) := by
  cases text with
  | nil =>
    rw [pieces_nil] at h
    cases h
  | cons c cs =>
    rw [pieces_cons, List.cons.injEq] at h
    obtain ⟨rfl, rfl⟩ := h
    exact ⟨c, cs, rfl, rfl, rfl⟩

/-- The pieces of a text concatenate to it. -/
theorem flatMap_text_pieces (text : List Char) : (pieces text).flatMap Piece.text = text := by
  fun_induction pieces text with
  | case1 => rfl
  | case2 c cs ih =>
    rw [List.flatMap_cons, ih]
    exact List.prefix_iff_eq_append.1 (Piece.text_first_isPrefix c cs)

/-- No piece of a text is empty. -/
theorem text_ne_nil_of_mem_pieces {text : List Char} {p : Piece} (h : p ∈ pieces text) :
    p.text ≠ [] := by
  fun_induction pieces text with
  | case1 => cases h
  | case2 c cs ih =>
    rcases List.mem_cons.1 h with rfl | h
    · exact Piece.text_first_ne_nil c cs
    · exact ih h

/-- Neither is one of its first pieces. -/
theorem text_ne_nil_of_pieces_eq_append {text : List Char} {ps qs : List Piece}
    (h : pieces text = ps ++ qs) {p : Piece} (hp : p ∈ ps) : p.text ≠ [] := by
  have hm : p ∈ pieces text := by
    rw [h]
    exact List.mem_append_left _ hp
  exact text_ne_nil_of_mem_pieces hm

/-- Pieces behind others are the pieces of their own text. -/
theorem eq_pieces_of_pieces_eq_append {text : List Char} {ps qs : List Piece}
    (h : pieces text = ps ++ qs) : qs = pieces (qs.flatMap Piece.text) := by
  induction ps generalizing text with
  | nil =>
    rw [List.nil_append] at h
    rw [← h, flatMap_text_pieces]
  | cons p ps ih =>
    obtain ⟨c, cs, -, -, hps⟩ := exists_eq_cons_of_pieces_eq_cons h
    exact ih hps.symm

/-- Behind a string that is not closed there is nothing, and no quote in it but the first. -/
theorem eq_nil_of_pieces_eq_unclosed {source text : List Char} {ps qs : List Piece}
    (h : pieces source = ps ++ .unclosed text :: qs) :
    qs = [] ∧ ∃ body, '"' ∉ body ∧ text = '"' :: body := by
  have hq := eq_pieces_of_pieces_eq_append h
  obtain ⟨c, cs, ht, hf, hqs⟩ := exists_eq_cons_of_pieces_eq_cons hq.symm
  obtain ⟨rfl, hc, rfl⟩ := Piece.eq_quote_of_first hf.symm
  rw [ht] at hqs
  rw [hqs]
  exact ⟨by rw [Piece.text, List.drop_length, pieces_nil], cs, hc, rfl⟩

/-- No piece of a text ends it. -/
theorem kind_ne_eof_of_mem_pieces {source text : List Char} {kind : Kind}
    (h : .token kind text ∈ pieces source) : kind ≠ .eof := by
  fun_induction pieces source with
  | case1 => cases h
  | case2 c cs ih =>
    rcases List.mem_cons.1 h with h | h
    · exact Piece.kind_ne_eof_of_first h.symm
    · exact ih h

end LoxTokens
