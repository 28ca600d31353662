import Mathlib.Data.List.Forall2
import LoxTokens.Proofs.Endings
import LoxTokens.Proofs.Passage

/-!
# Line endings

A line may end with a newline or with a carriage return and a newline. A scan does not tell which:
without the carriage returns in front of newlines a text has the same tokens and the same errors in
the same lines and columns. Only offsets differ, and strings that hold such a line ending lose the
carriage return in it.
-/

namespace LoxTokens

namespace Text

/-- A text without the carriage returns that are directly followed by a newline. -/
def unix : List Char → List Char
  | [] => []
  | c :: rest => if c = '\r' ∧ rest.head? = some '\n' then unix rest else c :: unix rest

/-- What is left of a text in front of another one that starts with this character, if with any. -/
def unixBefore (next : Option Char) : List Char → List Char
  | [] => []
  | c :: rest =>
    if c = '\r' ∧ rest.head?.or next = some '\n' then unixBefore next rest
    else c :: unixBefore next rest

/-- Only one carriage return goes with a newline. -/
example : unix "a\r\r\nb\r".toList = "a\r\nb\r".toList := by decide

variable {next : Option Char} {text rest : List Char} {c : Char}

theorem unixBefore_append (next : Option Char) (text rest : List Char) :
    unixBefore next (text ++ rest) =
      unixBefore (rest.head?.or next) text ++ unixBefore next rest := by
  induction text with
  | nil => rfl
  | cons c text ih =>
    rw [List.cons_append, unixBefore, unixBefore, List.head?_append, Option.or_assoc, ih]
    split <;> rfl

/-- Nothing but a newline behind a text changes what is left of it. -/
theorem unixBefore_eq_unix (h : next ≠ some '\n') (text : List Char) :
    unixBefore next text = unix text := by
  induction text with
  | nil => rfl
  | cons c text ih =>
    rw [unix, unixBefore, ih]
    cases text with
    | nil => simp [h]
    | cons d text => rfl

theorem unixBefore_none (text : List Char) : unixBefore none text = unix text :=
  unixBefore_eq_unix (by simp) text

theorem unix_append (text rest : List Char) :
    unix (text ++ rest) = unixBefore rest.head? text ++ unix rest := by
  rw [← unixBefore_none, ← unixBefore_none, unixBefore_append, Option.or_none]

/-- A character that is no carriage return is left. -/
theorem unixBefore_cons (h : c ≠ '\r') (next : Option Char) (text : List Char) :
    unixBefore next (c :: text) = c :: unixBefore next text := by
  rw [unixBefore, if_neg fun hc => h hc.1]

theorem unix_cons (h : c ≠ '\r') (text : List Char) : unix (c :: text) = c :: unix text := by
  rw [unix, if_neg fun hc => h hc.1]

/-- Between quotes a text loses what it loses alone. -/
theorem unixBefore_quoted (next : Option Char) (body : List Char) :
    unixBefore next ('"' :: body ++ ['"']) = '"' :: unix body ++ ['"'] := by
  have hquote : (['"'].head?.or next) ≠ some '\n' := by simp
  rw [unixBefore_append, unixBefore_cons (by decide), unixBefore_eq_unix hquote,
    unixBefore_cons (by decide)]
  rfl

theorem unix_quoted (body : List Char) :
    unix ('"' :: body ++ ['"']) = '"' :: unix body ++ ['"'] := by
  rw [← unixBefore_none, unixBefore_quoted]

/-- Without carriage returns everything is left. -/
theorem unixBefore_of_not_mem (h : '\r' ∉ text) (next : Option Char) :
    unixBefore next text = text := by
  induction text with
  | nil => rfl
  | cons c text ih =>
    rw [List.mem_cons, not_or] at h
    rw [unixBefore, ih h.2, if_neg fun hc => h.1 hc.1.symm]

theorem unix_of_not_mem (h : '\r' ∉ text) : unix text = text := by
  rw [← unixBefore_none, unixBefore_of_not_mem h]

/-- Nothing is added. -/
theorem mem_of_mem_unixBefore (h : c ∈ unixBefore next text) : c ∈ text := by
  induction text with
  | nil => exact h
  | cons d text ih =>
    rw [unixBefore] at h
    split at h
    · exact List.mem_cons_of_mem d (ih h)
    · rcases List.mem_cons.1 h with rfl | h
      · exact List.mem_cons_self
      · exact List.mem_cons_of_mem d (ih h)

theorem mem_of_mem_unix (h : c ∈ unix text) : c ∈ text := by
  rw [← unixBefore_none] at h
  exact mem_of_mem_unixBefore h

/-- The first character stays the first one, unless that is a newline then. -/
theorem forall_mem_head?_unix {p : Char → Prop} (h : ∀ d ∈ text.head?, p d)
    (hnewline : p '\n') : ∀ d ∈ (unix text).head?, p d := by
  cases text with
  | nil => exact h
  | cons c rest =>
    intro d hd
    rw [unix] at hd
    split at hd
    · rename_i hc
      obtain ⟨tail, rfl⟩ := List.head?_eq_some_iff.1 hc.2
      rw [unix_cons (by decide)] at hd
      obtain rfl := Option.some.inj hd
      exact hnewline
    · exact h d hd

end Text

namespace Location

/-- Two places are on the same line, and in the same column unless a newline comes next. -/
structure Agree (next : Option Char) (a b : Location) : Prop where
  /-- The line is the same. -/
  line_eq : b.line = a.line
  /-- The column is the same if it matters for what comes next. -/
  column_eq : next ≠ some '\n' → b.column = a.column

/-- Places behind one character agree if those in front of it do. -/
theorem Agree.next {c : Char} {after : Option Char} {a b : Location} (h : a.Agree (some c) b) :
    (a.next c).Agree after (b.next c) := by
  unfold Location.next
  by_cases hc : c = '\n'
  · simp only [hc, if_true]
    exact ⟨congrArg (· + 1) h.line_eq, fun _ => rfl⟩
  · simp only [hc, if_false]
    exact ⟨h.line_eq, fun _ => congrArg (· + 1) (h.column_eq (by simpa using hc))⟩

/-- Places behind a text agree if those in front of it do, with the carriage returns or without. -/
theorem Agree.after {next : Option Char} {text : List Char} {a b : Location}
    (h : a.Agree (text.head?.or next) b) :
    (a.after text).Agree next (b.after (Text.unixBefore next text)) := by
  induction text generalizing a b with
  | nil => exact h
  | cons c text ih =>
    rw [Text.unixBefore, after_cons]
    split
    · rename_i hc
      obtain ⟨rfl, hnext⟩ := hc
      exact ih ⟨h.line_eq, fun hno => absurd hnext hno⟩
    · exact ih h.next

theorem Agree.after_unix {text : List Char} {a b : Location} (h : a.Agree text.head? b) :
    (a.after text).Agree none (b.after (Text.unix text)) := by
  rw [← Text.unixBefore_none]
  exact Agree.after (by rwa [Option.or_none])

end Location

namespace Piece

variable {p : Piece} {rest : List Char}

/-- A piece ends in front of a text whether or not it has carriage returns. -/
theorem EndsAt.unix (h : p.EndsAt rest) : p.EndsAt (Text.unix rest) := by
  cases p with
  | token kind text =>
    cases kind with
    | symbol s =>
      refine Text.forall_mem_head?_unix h ⟨by simp, fun t ht => ?_⟩
      have hmem : '\n' ∈ t.spelling := by simp [ht]
      cases t <;> simp [Symbol.spelling] at hmem
    | number =>
      refine ⟨Text.forall_mem_head?_unix h.1 rfl, fun hno hpoint d hd => ?_⟩
      have hhead : rest.head? = some '.' := by
        by_contra hne
        have hother : ∀ e ∈ rest.head?, e ≠ '.' := by
          rintro e he rfl
          exact hne he
        exact Text.forall_mem_head?_unix hother (by decide) '.' hpoint rfl
      obtain ⟨tail, rfl⟩ := List.head?_eq_some_iff.1 hhead
      rw [Text.unix_cons (by decide), List.getElem?_cons_succ, ← List.head?_eq_getElem?] at hd
      refine Text.forall_mem_head?_unix (fun e he => h.2 hno rfl e ?_) rfl d hd
      rwa [List.getElem?_cons_succ, ← List.head?_eq_getElem?]
    | string => trivial
    | identifier | keyword | eof => exact Text.forall_mem_head?_unix h rfl
  | gap text => exact fun hslash => Text.forall_mem_head?_unix (h hslash) rfl
  | stray => trivial
  | unclosed =>
    obtain rfl : rest = [] := h
    rfl

/-- A piece without the carriage returns in front of newlines, where a text comes next that starts
with this character, if with any. -/
def unix (next : Option Char) : Piece → Piece
  | token kind text => token kind (Text.unix text)
  | gap text => gap (Text.unixBefore next text)
  | stray c => stray c
  | unclosed text => unclosed (Text.unix text)

theorem unix_of_not_mem (h : '\r' ∉ p.text) (next : Option Char) : p.unix next = p := by
  cases p with
  | token kind text => exact congrArg (token kind) (Text.unix_of_not_mem h)
  | gap text => exact congrArg gap (Text.unixBefore_of_not_mem h next)
  | stray => rfl
  | unclosed text => exact congrArg unclosed (Text.unix_of_not_mem h)

theorem return_not_mem_numeral {c : Char} (hc : Text.isDigit c = true) (cs : List Char) :
    '\r' ∉ numeral (c :: cs) := by
  intro hmem
  obtain hdigit | hpoint := Rule.isDigit_or_eq_of_mem_number (numeral_mem hc cs) hmem
  · cases hdigit
  · cases hpoint

/-- Carriage returns stand between lexemes, in comments and in strings, closed or not. -/
theorem cases_of_return_mem (h : first? (p.text ++ rest) = some p) (hmem : '\r' ∈ p.text) :
    p = gap ['\r'] ∨ (∃ line, p = gap ('/' :: '/' :: line) ∧ ∀ d ∈ line, (d != '\n') = true) ∨
      (∃ body, p = token .string ('"' :: body ++ ['"']) ∧ '"' ∉ body) ∨
      ∃ body, p = unclosed ('"' :: body) ∧ '"' ∉ body ∧ rest = [] := by
  have hends := (first?_text_append_iff h rest).1 h
  cases hsource : p.text ++ rest with
  | nil =>
    rw [hsource] at h
    cases h
  | cons c cs =>
    rw [hsource] at h
    have ho := opening_first c cs
    rw [Option.some.inj h] at ho
    cases ho with
    | space hc =>
      obtain rfl : '\r' = c := by simpa [text] using hmem
      exact Or.inl rfl
    | comment => exact Or.inr (Or.inl ⟨_, rfl, List.all_eq_true.1 List.all_takeWhile⟩)
    | closed hc hcs hb => exact Or.inr (Or.inr (Or.inl ⟨_, rfl, hb⟩))
    | unclosed hc hcs => exact Or.inr (Or.inr (Or.inr ⟨_, rfl, hcs, hends⟩))
    | number hc => exact absurd hmem (return_not_mem_numeral hc cs)
    | word hc =>
      rcases List.mem_cons.1 hmem with rfl | hm
      · cases hc
      · cases List.all_eq_true.1 List.all_takeWhile _ hm
    | @symbol s hs => cases s <;> simp [text, Symbol.spelling] at hmem
    | stray hsp =>
      obtain rfl : '\r' = c := by simpa [text] using hmem
      cases hsp

/-- A piece loses what its text loses in front of the text behind it. -/
theorem text_unix (h : first? (p.text ++ rest) = some p) :
    (p.unix rest.head?).text = Text.unixBefore rest.head? p.text := by
  by_cases hmem : '\r' ∈ p.text
  · obtain rfl | ⟨line, rfl, -⟩ | ⟨body, rfl, -⟩ | ⟨body, rfl, -, rfl⟩ :=
      cases_of_return_mem h hmem
    · rfl
    · rfl
    · rw [unix, text, text, Text.unix_quoted, Text.unixBefore_quoted]
    · rw [unix, text, text, List.head?_nil, Text.unixBefore_none]
  · rw [unix_of_not_mem hmem, Text.unixBefore_of_not_mem hmem]

/-- A carriage return in front of a newline vanishes. Any other first piece of a text stays the
first one without the carriage returns in it. -/
theorem first?_unix (h : first? (p.text ++ rest) = some p) :
    (p = gap ['\r'] ∧ rest.head? = some '\n') ∨
      first? ((p.unix rest.head?).text ++ Text.unix rest) = some (p.unix rest.head?) := by
  have hends : p.EndsAt (Text.unix rest) := ((first?_text_append_iff h rest).1 h).unix
  by_cases hmem : '\r' ∈ p.text
  · obtain rfl | ⟨line, rfl, hline⟩ | ⟨body, rfl, hbody⟩ | ⟨body, rfl, hbody, rfl⟩ :=
      cases_of_return_mem h hmem
    · by_cases hnext : rest.head? = some '\n'
      · exact Or.inl ⟨rfl, hnext⟩
      · have hstays : Text.unixBefore rest.head? ['\r'] = ['\r'] :=
          Text.unixBefore_eq_unix hnext _
        right
        rw [unix, hstays]
        rfl
    · have hleft : ∀ d ∈ Text.unixBefore rest.head? line, (d != '\n') = true := by
        intro d hd
        exact hline d (Text.mem_of_mem_unixBefore hd)
      have hstop : ∀ d ∈ (Text.unix rest).head?, (d != '\n') = false := by
        simpa using hends rfl
      have htake := (takeWhile_append_eq_left_iff hleft).2 hstop
      right
      simp [unix, text, Text.unixBefore_cons, first?, first_comment, htake]
    · have hleft : '"' ∉ Text.unix body := mt Text.mem_of_mem_unix hbody
      right
      rw [unix, text, Text.unix_quoted]
      simp [first?, first_quote, quoted_append hleft]
    · have hleft : '"' ∉ Text.unix body := mt Text.mem_of_mem_unix hbody
      right
      rw [unix, text, Text.unix_cons (by decide)]
      simp [Text.unix, first?, first_quote, quoted_of_not_mem hleft]
  · rw [unix_of_not_mem hmem]
    exact Or.inr ((first?_text_append_iff h _).2 hends)

/-- Only gaps start with a newline. -/
theorem head?_ne_newline {source : List Char} (h : first? source = some p)
    (hp : ∀ text, p ≠ gap text) : source.head? ≠ some '\n' := by
  intro hhead
  obtain ⟨tail, rfl⟩ := List.head?_eq_some_iff.1 hhead
  rw [first?, first_of_isSpace rfl] at h
  exact hp _ (Option.some.inj h).symm

end Piece

/-- A value without the carriage returns in front of newlines. -/
def Literal.unix : Literal → Literal
  | text s => text (String.ofList (Text.unix s.toList))
  | number x => number x

/-- The value of a token loses what its text loses. -/
theorem Literal.ofLexeme_unix {source text : List Char} {kind : Kind}
    (h : Piece.first? source = some (.token kind text)) :
    ofLexeme kind (Text.unix text) = (ofLexeme kind text).map Literal.unix := by
  cases source with
  | nil => cases h
  | cons c cs =>
    have ho := Piece.opening_first c cs
    rw [Option.some.inj h] at ho
    cases ho with
    | @closed body =>
      rw [Text.unix_quoted]
      simp [ofLexeme, unix]
    | number hc =>
      rw [Text.unix_of_not_mem (Piece.return_not_mem_numeral hc cs)]
      rfl
    | word => simp [ofLexeme_ofWord]
    | symbol => rfl

/-- The span starts in the same line and column. -/
structure Span.SamePlace (s t : Span) : Prop where
  /-- The line is the same. -/
  line_eq : t.line = s.line
  /-- The column is the same. -/
  column_eq : t.column = s.column

/-- A token is another one without the carriage returns in front of newlines, in the same place. -/
structure Token.Unix (t u : Token) : Prop where
  /-- The kind is the same. -/
  kind_eq : u.kind = t.kind
  /-- The text has no carriage returns in front of newlines. -/
  lexeme_eq : u.lexeme.toList = Text.unix t.lexeme.toList
  /-- Neither has the text of a string, and numbers are the same. -/
  literal_eq : u.literal = t.literal.map Literal.unix
  /-- The token ends on the same line. -/
  line_eq : u.line = t.line
  /-- It starts in the same place. -/
  place : t.span.SamePlace u.span

/-- Two errors say the same in the same places. -/
inductive LexError.SamePlace : LexError → LexError → Prop where
  | unexpectedCharacter {c : Char} {s t : Span} (h : s.SamePlace t) :
      SamePlace (.unexpectedCharacter c s) (.unexpectedCharacter c t)
  | unterminatedString {o p s t : Span} (ho : o.SamePlace p) (h : s.SamePlace t) :
      SamePlace (.unterminatedString o s) (.unterminatedString p t)

section

variable {a b : Location} {p : Piece} {rest : List Char}

/-- Places in front of a piece that is no gap agree whatever comes next. -/
theorem Location.Agree.of_first? {source : List Char} (h : a.Agree source.head? b)
    (hp : Piece.first? source = some p) (hgap : ∀ text, p ≠ .gap text) (next : Option Char) :
    a.Agree next b :=
  ⟨h.line_eq, fun _ => h.column_eq (Piece.head?_ne_newline hp hgap)⟩

/-- What a piece makes is the same in places that agree. -/
theorem Piece.token?_unix (h : first? (p.text ++ rest) = some p)
    (hplace : a.Agree (p.text ++ rest).head? b) :
    List.Forall₂ Token.Unix (p.token? a).toList ((p.unix rest.head?).token? b).toList := by
  cases p with
  | token kind text =>
    have hsame := hplace.of_first? h (by simp)
    have hbehind := (hsame text.head?).after_unix
    refine .cons ⟨rfl, ?_, Literal.ofLexeme_unix h, hbehind.line_eq, ?_⟩ .nil
    · simp [Token.startAt]
    · exact ⟨hplace.line_eq, (hsame none).column_eq (by simp)⟩
  | gap | stray | unclosed => exact .nil

theorem Piece.error?_unix (h : first? (p.text ++ rest) = some p)
    (hplace : a.Agree (p.text ++ rest).head? b) :
    List.Forall₂ LexError.SamePlace (p.error? a).toList
      ((p.unix rest.head?).error? b).toList := by
  cases p with
  | stray c =>
    have hsame := hplace.of_first? h (by simp) none
    exact .cons (.unexpectedCharacter ⟨hsame.line_eq, hsame.column_eq (by simp)⟩) .nil
  | unclosed text =>
    have hsame := hplace.of_first? h (by simp)
    have hfront := hsame none
    have hbehind := (hsame text.head?).after_unix
    refine .cons (.unterminatedString ?_ ?_) .nil
    · exact ⟨hfront.line_eq, hfront.column_eq (by simp)⟩
    · exact ⟨hbehind.line_eq, hbehind.column_eq (by simp)⟩
  | token | gap => exact .nil

end

/-- So is what all pieces of a text make. -/
theorem forall₂_unix {a b : Location} {text : List Char} (h : a.Agree text.head? b) :
    List.Forall₂ Token.Unix (tokensFrom a (pieces text))
        (tokensFrom b (pieces (Text.unix text))) ∧
      List.Forall₂ LexError.SamePlace (errorsFrom a (pieces text))
        (errorsFrom b (pieces (Text.unix text))) := by
  induction text using pieces_induction generalizing a b with
  | nil => simp [Text.unix]
  | piece p rest hfirst _ ih =>
    rw [pieces_text_append hfirst, tokensFrom_cons, errorsFrom_cons]
    obtain ⟨rfl, hnext⟩ | hread := Piece.first?_unix hfirst
    · have hvanish : Text.unix (['\r'] ++ rest) = Text.unix rest := if_pos ⟨rfl, hnext⟩
      rw [Piece.text, hvanish]
      exact ih ⟨h.line_eq, fun hno => absurd hnext hno⟩
    · have hbehind : (a.after p.text).Agree rest.head? (b.after (p.unix rest.head?).text) := by
        rw [Piece.text_unix hfirst]
        apply Location.Agree.after
        rwa [← List.head?_append]
      obtain ⟨htokens, herrors⟩ := ih hbehind
      rw [Text.unix_append, ← Piece.text_unix hfirst, pieces_text_append hread, tokensFrom_cons,
        errorsFrom_cons]
      exact ⟨List.rel_append (Piece.token?_unix hfirst h) htokens,
        List.rel_append (Piece.error?_unix hfirst h) herrors⟩

/-- Line endings do not matter. Without the carriage returns in front of newlines a text has as many
tokens, each of the same kind, on the same lines and in the same column, with the text and the value
without them, and as many errors, each of the same kind with the same character and the same
places. -/
theorem scan_unix (source : List Char) :
    List.Forall₂ Token.Unix (Scan.ofText source).tokens
        (Scan.ofText (Text.unix source)).tokens ∧
      List.Forall₂ LexError.SamePlace (Scan.ofText source).errors
        (Scan.ofText (Text.unix source)).errors := by
  have hstart (next : Option Char) : Location.Agree next {} {} := ⟨rfl, fun _ => rfl⟩
  obtain ⟨htokens, herrors⟩ := forall₂_unix (hstart source.head?)
  have hend := (hstart source.head?).after_unix
  simp only [Scan.ofText_eq_ofPieces, Scan.ofPieces, flatMap_text_pieces]
  refine ⟨List.rel_append htokens (.cons ?_ .nil), herrors⟩
  exact ⟨rfl, rfl, rfl, hend.line_eq, hend.line_eq, hend.column_eq (by simp)⟩

end LoxTokens
