import LoxTokens.Proofs.Lookahead
import LoxTokens.Proofs.Newline
import LoxTokens.Proofs.Writing

/-!
# What stands inside comments and strings

The text of a comment is never looked at, and the text of a string only for the quote that ends it.
Whatever else is put into a comment, the scan stays the same but for offsets behind it. Whatever
else is put between the quotes of a string, only the text and the value of that string are others,
and the places behind it.
-/

namespace LoxTokens

/-- Bytes that are taken out of a text, and others that are put in. -/
structure Splice where
  /-- How many bytes stand in front. -/
  front : Nat
  /-- How many bytes are taken out. -/
  taken : Nat
  /-- How many bytes are put in. -/
  put : Nat
  deriving DecidableEq, Repr

/-- Offsets in front stay, and offsets behind move by the difference. -/
def Splice.offset (e : Splice) (n : Nat) : Nat := if n ≤ e.front then n else n + e.put - e.taken

/-- Another comment is put behind the slashes that follow a front. -/
def Splice.comment (front body other : List Char) : Splice :=
  ⟨Utf8.size front, Utf8.size body, Utf8.size other⟩

/-- Move the offsets of a span, but neither its line nor its column. -/
def Span.splice (e : Splice) (s : Span) : Span :=
  { s with start := e.offset s.start, stop := e.offset s.stop }

/-- Move the offsets of a token. -/
def Token.splice (e : Splice) (t : Token) : Token := { t with span := t.span.splice e }

/-- Move the offsets of an error. -/
def LexError.splice (e : Splice) : LexError → LexError
  | unexpectedCharacter c span => unexpectedCharacter c (span.splice e)
  | unterminatedString opened span => unterminatedString (opened.splice e) (span.splice e)

/-- Move the offsets of a scan. -/
def Scan.splice (e : Splice) (s : Scan) : Scan :=
  ⟨s.tokens.map (Token.splice e), s.errors.map (LexError.splice e)⟩

/-- The token in another column. -/
def Token.inColumn (t : Token) (column : Nat) : Token :=
  { t with span := { t.span with column } }

/-- What a token says, wherever it stands. -/
def Token.content (t : Token) : Kind × String × Option Literal := (t.kind, t.lexeme, t.literal)

section

variable {e : Splice}

theorem Splice.offset_of_le {n : Nat} (h : n ≤ e.front) : e.offset n = n := if_pos h

/-- A span that stops in front stays as it is. -/
theorem Span.splice_of_le {s : Span} (hstart : s.start ≤ e.front) (hstop : s.stop ≤ e.front) :
    s.splice e = s := by
  rw [splice, Splice.offset_of_le hstart, Splice.offset_of_le hstop]

end

theorem size_comment (front body : List Char) :
    Utf8.size (front ++ '/' :: '/' :: body) = Utf8.size front + 2 + Utf8.size body := by
  have hslash : Char.utf8Size '/' = 1 := rfl
  simp only [Utf8.size_append, Utf8.size_cons, hslash]
  omega

section

variable (front body other : List Char)

/-- An offset behind a comment is one behind the other comment. -/
theorem Splice.offset_comment (n : Nat) :
    (comment front body other).offset (n + Utf8.size (front ++ '/' :: '/' :: body)) =
      n + Utf8.size (front ++ '/' :: '/' :: other) := by
  simp only [offset, comment, size_comment]
  rw [if_neg (by omega)]
  omega

/-- A span behind a comment and a newline moves by the difference. -/
theorem Span.splice_comment (lines : Nat) (s : Span) :
    (s.shift ⟨Utf8.size (front ++ '/' :: '/' :: body) + 1, lines, 0⟩).splice
        (.comment front body other) =
      s.shift ⟨Utf8.size (front ++ '/' :: '/' :: other) + 1, lines, 0⟩ := by
  have hmoved (n : Nat) := Splice.offset_comment front body other (n + 1)
  simp only [Nat.add_assoc, Nat.add_comm 1] at hmoved
  simp only [splice, shift, hmoved]

/-- So does all that a scan finds there. -/
theorem Scan.splice_comment (lines : Nat) (s : Scan) :
    (s.shift ⟨Utf8.size (front ++ '/' :: '/' :: body) + 1, lines, 0⟩).splice
        (.comment front body other) =
      s.shift ⟨Utf8.size (front ++ '/' :: '/' :: other) + 1, lines, 0⟩ := by
  have htokens (t : Token) :
      (t.shift ⟨Utf8.size (front ++ '/' :: '/' :: body) + 1, lines, 0⟩).splice
          (.comment front body other) =
        t.shift ⟨Utf8.size (front ++ '/' :: '/' :: other) + 1, lines, 0⟩ := by
    simp only [Token.splice, Token.shift, Span.splice_comment]
  have herrors (x : LexError) :
      (x.shift ⟨Utf8.size (front ++ '/' :: '/' :: body) + 1, lines, 0⟩).splice
          (.comment front body other) =
        x.shift ⟨Utf8.size (front ++ '/' :: '/' :: other) + 1, lines, 0⟩ := by
    cases x <;> simp only [LexError.splice, LexError.shift, Span.splice_comment]
  simp only [splice, shift, List.map_map, Function.comp_def, htokens, herrors]

end

/-- Moving a token does not change what it says. -/
theorem Token.content_shift (k : Shift) (t : Token) : (t.shift k).content = t.content := rfl

theorem LexError.culprit?_shift (k : Shift) (e : LexError) : (e.shift k).culprit? = e.culprit? := by
  cases e <;> rfl

variable {source : List Char} {ps qs : List Piece} {p q : Piece}

/-- A piece among others is the first one of its text and all that follows. -/
theorem first?_of_pieces_eq (h : pieces source = ps ++ p :: qs) :
    Piece.first? (p.text ++ qs.flatMap Piece.text) = some p := by
  have hown := (eq_pieces_of_pieces_eq_append h).symm
  rw [List.flatMap_cons] at hown
  obtain ⟨c, cs, htext, rfl, -⟩ := exists_eq_cons_of_pieces_eq_cons hown
  rw [htext, Piece.first?]

/-- The text of a piece stands between the texts of the pieces around it. -/
theorem eq_append_of_pieces_eq (h : pieces source = ps ++ p :: qs) :
    source = ps.flatMap Piece.text ++ p.text ++ qs.flatMap Piece.text := by
  have htext := flatMap_text_pieces source
  rw [h, List.flatMap_append, List.flatMap_cons, ← List.append_assoc] at htext
  exact htext.symm

/-- A piece can take the place of another one that starts with the same character, if it is the
first piece there. The pieces in front look ahead to that character only. -/
theorem pieces_replace {c : Char} (h : pieces source = ps ++ p :: qs)
    (hp : p.text.head? = some c) (hq : q.text.head? = some c) (hc : c ≠ '.')
    (hfirst : Piece.first? (q.text ++ qs.flatMap Piece.text) = some q) :
    pieces (ps.flatMap Piece.text ++ q.text ++ qs.flatMap Piece.text) = ps ++ q :: qs := by
  rw [List.append_assoc]
  induction source using pieces_induction generalizing ps with
  | nil => simp at h
  | piece r rest hr hends ih =>
    rw [pieces_text_append hr] at h
    cases ps with
    | nil =>
      obtain ⟨-, rfl⟩ := List.cons.inj h
      rw [flatMap_text_pieces] at hfirst ⊢
      exact pieces_text_append hfirst
    | cons s ps =>
      obtain ⟨rfl, hrest⟩ := List.cons.inj h
      have htext := eq_append_of_pieces_eq hrest
      have hhead (front : List Char) :
          (front ++ (q.text ++ qs.flatMap Piece.text)).head? =
            (front ++ (p.text ++ qs.flatMap Piece.text)).head? := by
        simp [List.head?_append, hp, hq]
      have hstays : r.EndsAt (ps.flatMap Piece.text ++ (q.text ++ qs.flatMap Piece.text)) := by
        rw [htext, List.append_assoc] at hends
        refine (Piece.endsAt_congr (hhead _) (fun hpoint => ?_) r).2 hends
        -- A point is no front of the piece that is replaced, so another piece starts with it.
        cases hfront : ps.flatMap Piece.text with
        | nil =>
          rw [hfront, List.nil_append, List.head?_append, hq] at hpoint
          exact absurd (Option.some.inj hpoint) hc
        | cons d front =>
          simp only [List.cons_append, List.getElem?_cons_succ, ← List.head?_eq_getElem?, hhead]
      rw [List.flatMap_cons, List.append_assoc,
        pieces_text_append ((Piece.first?_text_append_iff hr _).2 hstays), ih hrest,
        List.cons_append]

/-- What is found in a text is found in front of a piece, in the piece, and behind it. -/
theorem Scan.ofText_eq_around (h : pieces source = ps ++ p :: qs) :
    let place := Location.after {} (ps.flatMap Piece.text)
    let tail := (Scan.ofText (qs.flatMap Piece.text)).shift
      (.behind (ps.flatMap Piece.text ++ p.text))
    Scan.ofText source =
      ⟨tokensFrom {} ps ++ ((p.token? place).toList ++ tail.tokens),
        errorsFrom {} ps ++ ((p.error? place).toList ++ tail.errors)⟩ := by
  have hsplit : pieces source = (ps ++ [p]) ++ qs := by
    rw [h, List.append_assoc, List.singleton_append]
  rw [eq_pieces_of_pieces_eq_append hsplit] at hsplit
  have hfront : (ps ++ [p]).flatMap Piece.text = ps.flatMap Piece.text ++ p.text := by
    rw [List.flatMap_append, List.flatMap_singleton]
  rw [Scan.ofText_eq_append hsplit hfront, tokensFrom_append, errorsFrom_append, tokensFrom_cons,
    errorsFrom_cons, tokensFrom_nil, errorsFrom_nil, List.append_nil, List.append_nil,
    List.append_assoc, List.append_assoc]

/-- Only the last piece of a text is not closed. -/
theorem unclosed_not_mem_front (h : pieces source = ps ++ p :: qs) (text : List Char) :
    .unclosed text ∉ ps := by
  intro hmem
  obtain ⟨front, back, rfl⟩ := List.append_of_mem hmem
  rw [List.append_assoc, List.cons_append] at h
  exact absurd (eq_nil_of_pieces_eq_unclosed h).1 (by simp)

section

variable {e : Splice}

/-- The tokens in front of a splice stay as they are. -/
theorem map_splice_tokensFrom (hfront : e.front = Utf8.size (ps.flatMap Piece.text)) :
    (tokensFrom {} ps).map (Token.splice e) = tokensFrom {} ps := by
  refine (List.map_congr_left fun t ht => ?_).trans (List.map_id _)
  have hstop := (stop_le_of_mem_tokensFrom ht).1
  rw [Location.offset_after, Nat.zero_add, ← hfront] at hstop
  obtain ⟨here, kind, text, -, rfl⟩ := mem_tokensFrom_iff.1 ht
  have hstart := Nat.le_trans (here.upto_after text).offset_le hstop
  rw [Token.splice, Span.splice_of_le hstart hstop]
  rfl

/-- So do the errors. -/
theorem map_splice_errorsFrom (hfront : e.front = Utf8.size (ps.flatMap Piece.text))
    (hclosed : ∀ text, .unclosed text ∉ ps) :
    (errorsFrom {} ps).map (LexError.splice e) = errorsFrom {} ps := by
  refine (List.map_congr_left fun x hx => ?_).trans (List.map_id _)
  have hstop := stop_le_of_mem_errorsFrom hx
  rw [Location.offset_after, Nat.zero_add, ← hfront] at hstop
  cases x with
  | unexpectedCharacter c span =>
    obtain ⟨here, -, rfl⟩ := unexpectedCharacter_mem_errorsFrom_iff.1 hx
    have hstart := Nat.le_trans (here.upto_after [c]).offset_le hstop
    exact congrArg (LexError.unexpectedCharacter c) (Span.splice_of_le hstart hstop)
  | unterminatedString opened span =>
    obtain ⟨here, text, hmem, -⟩ := unterminatedString_mem_errorsFrom_iff.1 hx
    exact absurd (mem_of_mem_located hmem) (hclosed text)

end

section

variable {body other back tail : List Char}

/-- A comment is ended by a newline or by the end of the text. -/
theorem Piece.first?_comment_append_iff :
    first? ('/' :: '/' :: body ++ back) = some (gap ('/' :: '/' :: body)) ↔
      '\n' ∉ body ∧ ∀ d ∈ back.head?, d = '\n' := by
  have hread : first? ('/' :: '/' :: body ++ back) =
      some (gap ('/' :: '/' :: (body ++ back).takeWhile (· != '\n'))) := rfl
  constructor
  · intro h
    have hbody : (body ++ back).takeWhile (· != '\n') = body := by
      simpa using hread.symm.trans h
    refine ⟨?_, (first?_text_append_iff h back).1 h rfl⟩
    rw [← hbody]
    exact not_mem_takeWhile_bne '\n' _
  · rintro ⟨hbody, hback⟩
    have hall : ∀ c ∈ body, (c != '\n') = true := by
      intro c hc
      rw [bne_iff_ne]
      rintro rfl
      exact hbody hc
    have hstop : ∀ d ∈ back.head?, (d != '\n') = false := by simpa using hback
    rw [hread, (takeWhile_append_eq_left_iff hall).2 hstop]

/-- What is found in front of a comment and behind the newline that ends it. -/
theorem Scan.ofText_eq_of_line {line : List Char}
    (h : pieces source = ps ++ .gap line :: .gap ['\n'] :: pieces tail) :
    let front := ps.flatMap Piece.text ++ line
    let behind := (Scan.ofText tail).shift ⟨Utf8.size front + 1, 1 + front.count '\n', 0⟩
    Scan.ofText source =
      ⟨tokensFrom {} ps ++ behind.tokens, errorsFrom {} ps ++ behind.errors⟩ := by
  have hsplit : pieces source = (ps ++ [.gap line]) ++ .gap ['\n'] :: pieces tail := by
    rw [h, List.append_assoc, List.singleton_append]
  have hfront : (ps ++ [Piece.gap line]).flatMap Piece.text = ps.flatMap Piece.text ++ line := by
    rw [List.flatMap_append, List.flatMap_singleton]
    rfl
  rw [Scan.ofText_eq_around hsplit, hfront, flatMap_text_pieces, Piece.text,
    Shift.behind_newline, tokensFrom_append, errorsFrom_append]
  simp [tokensFrom_cons, errorsFrom_cons, Piece.token?, Piece.error?]

/-- What is found in front of a comment that ends the text. -/
theorem Scan.ofText_eq_of_last_line {line : List Char} (h : pieces source = ps ++ [.gap line]) :
    Scan.ofText source =
      ⟨tokensFrom {} ps ++ [Token.endAt (Location.after {} source)], errorsFrom {} ps⟩ := by
  rw [Scan.ofText_eq_ofPieces, Scan.ofPieces, flatMap_text_pieces, h, tokensFrom_append,
    errorsFrom_append]
  simp [tokensFrom_cons, errorsFrom_cons, Piece.token?, Piece.error?]

/-- Without newlines in it a comment has no part in the lines of a text. -/
theorem count_newline_comment (front : List Char) (hbody : '\n' ∉ body) :
    (front ++ '/' :: '/' :: body).count '\n' = front.count '\n' := by
  simp [List.count_eq_zero_of_not_mem hbody]

/-- Where a newline ends a comment, another comment moves what stands behind it. -/
theorem Scan.ofText_replace_line {edited : List Char}
    (h : pieces source = ps ++ .gap ('/' :: '/' :: body) :: .gap ['\n'] :: pieces tail)
    (hedited : pieces edited = ps ++ .gap ('/' :: '/' :: other) :: .gap ['\n'] :: pieces tail)
    (hbody : '\n' ∉ body) (hother : '\n' ∉ other) :
    Scan.ofText edited =
      (Scan.ofText source).splice (.comment (ps.flatMap Piece.text) body other) := by
  have htokens := map_splice_tokensFrom (e := .comment (ps.flatMap Piece.text) body other) rfl
  have herrors := map_splice_errorsFrom (e := .comment (ps.flatMap Piece.text) body other) rfl
    (unclosed_not_mem_front h)
  rw [Scan.ofText_eq_of_line h, Scan.ofText_eq_of_line hedited]
  simp only [count_newline_comment _ hbody, count_newline_comment _ hother]
  rw [← Scan.splice_comment _ body, splice, splice, List.map_append, List.map_append, htokens,
    herrors]

/-- Where nothing stands behind a comment, another one moves the end of the text. -/
theorem Scan.ofText_replace_last_line {edited : List Char}
    (h : pieces source = ps ++ [.gap ('/' :: '/' :: body)])
    (hedited : pieces edited = ps ++ [.gap ('/' :: '/' :: other)])
    (hbody : '\n' ∉ body) (hother : '\n' ∉ other) :
    ∃ ts last, (Scan.ofText source).splice (.comment (ps.flatMap Piece.text) body other) =
        ⟨ts ++ [last], (Scan.ofText edited).errors⟩ ∧ last.kind = .eof ∧
      (Scan.ofText edited).tokens = ts ++ [last.inColumn (columnBehind edited)] := by
  have htokens := map_splice_tokensFrom (e := .comment (ps.flatMap Piece.text) body other) rfl
  have herrors := map_splice_errorsFrom (e := .comment (ps.flatMap Piece.text) body other) rfl
    (unclosed_not_mem_front h)
  have hsource : source = ps.flatMap Piece.text ++ '/' :: '/' :: body := by
    simpa [Piece.text] using eq_append_of_pieces_eq h
  have hreplaced : edited = ps.flatMap Piece.text ++ '/' :: '/' :: other := by
    simpa [Piece.text] using eq_append_of_pieces_eq hedited
  have hline : lineBehind edited = lineBehind source := by
    rw [lineBehind, lineBehind, hsource, hreplaced, count_newline_comment _ hbody,
      count_newline_comment _ hother]
  have hoffset : (Splice.comment (ps.flatMap Piece.text) body other).offset (Utf8.size source) =
      Utf8.size edited := by
    have hmoved := Splice.offset_comment (ps.flatMap Piece.text) body other 0
    rwa [Nat.zero_add, Nat.zero_add, ← hsource, ← hreplaced] at hmoved
  refine ⟨tokensFrom {} ps, (Token.endAt (Location.after {} source)).splice
    (.comment (ps.flatMap Piece.text) body other), ?_, rfl, ?_⟩
  · rw [Scan.ofText_eq_of_last_line h, Scan.ofText_eq_of_last_line hedited, splice,
      List.map_append, htokens, herrors]
    rfl
  · rw [Scan.ofText_eq_of_last_line hedited]
    simp only [Location.after_start, Token.endAt, Token.eof, Token.splice, Token.inColumn,
      Span.splice, Span.between, hoffset, hline]

/-- Whatever else stands in a comment, all that is found stays the same but for offsets behind it,
and for the column of the end if nothing stands behind the comment. -/
theorem Scan.ofText_replace_comment (h : pieces source = ps ++ .gap ('/' :: '/' :: body) :: qs)
    (hother : '\n' ∉ other) :
    let front := ps.flatMap Piece.text
    let back := qs.flatMap Piece.text
    let edited := front ++ '/' :: '/' :: other ++ back
    ∃ ts last, (Scan.ofText source).splice (.comment front body other) =
        ⟨ts ++ [last], (Scan.ofText edited).errors⟩ ∧ last.kind = .eof ∧
      (Scan.ofText edited).tokens = ts ++ [last.inColumn (columnBehind edited)] ∧
      (back ≠ [] → last.span.column = columnBehind edited) := by
  intro front back edited
  obtain ⟨hbody, hback⟩ := Piece.first?_comment_append_iff.1 (first?_of_pieces_eq h)
  have hfirst := Piece.first?_comment_append_iff.2 ⟨hother, hback⟩
  have hedited : pieces edited = ps ++ .gap ('/' :: '/' :: other) :: qs :=
    pieces_replace (q := .gap ('/' :: '/' :: other)) h rfl rfl (by decide) hfirst
  have hown : qs = pieces back := by
    have hsplit : pieces source = (ps ++ [.gap ('/' :: '/' :: body)]) ++ qs := by
      rw [h, List.append_assoc, List.singleton_append]
    exact eq_pieces_of_pieces_eq_append hsplit
  cases hb : back with
  | nil =>
    rw [hb, pieces_nil] at hown
    rw [hown] at h hedited
    obtain ⟨ts, last, hmoved, hkind, htokens⟩ :=
      Scan.ofText_replace_last_line h hedited hbody hother
    exact ⟨ts, last, hmoved, hkind, htokens, fun hne => absurd rfl hne⟩
  | cons d tail =>
    obtain rfl := hback d (by change d ∈ back.head?; rw [hb]; rfl)
    have hline : qs = .gap ['\n'] :: pieces tail := by
      rw [hown, hb, pieces_cons, Piece.first_of_isSpace rfl]
      rfl
    rw [hline] at h hedited
    have hmoved := Scan.ofText_replace_line h hedited hbody hother
    have hend := Scan.ofText_eq_ofPieces edited
    have hcolumn : (Token.endAt (Location.after {} edited)).span.column = columnBehind edited := by
      rw [Location.after_start]
      rfl
    rw [Scan.ofPieces, flatMap_text_pieces] at hend
    refine ⟨tokensFrom {} (pieces edited), Token.endAt (Location.after {} edited), ?_, rfl, ?_,
      fun _ => hcolumn⟩
    · rw [← hmoved, hend]
    · rw [← hcolumn, hend]
      rfl

/-- Whatever else stands between the quotes of a string, it is one string, and the pieces around it
are the same. -/
theorem pieces_replace_string
    (h : pieces source = ps ++ .token .string ('"' :: body ++ ['"']) :: qs) (hother : '"' ∉ other) :
    pieces (ps.flatMap Piece.text ++ ('"' :: other ++ ['"']) ++ qs.flatMap Piece.text) =
      ps ++ .token .string ('"' :: other ++ ['"']) :: qs := by
  refine pieces_replace (q := .token .string ('"' :: other ++ ['"'])) h rfl rfl (by decide) ?_
  rw [Piece.text, List.append_assoc, List.cons_append, List.singleton_append, Piece.first?,
    Piece.first_quote, Piece.quoted_append hother]

/-- A string among the tokens of a text is a piece between those that make the other tokens. -/
theorem exists_pieces_of_string {t : Token} {before after : List Token}
    (h : (Scan.ofText source).tokens = before ++ t :: after) (hkind : t.kind = .string) :
    ∃ ps body qs, pieces source = ps ++ .token .string ('"' :: body ++ ['"']) :: qs ∧
      tokensFrom {} ps = before ∧
      t = Token.startAt (Location.after {} (ps.flatMap Piece.text)) .string
        ('"' :: body ++ ['"']) := by
  rw [Scan.ofText_eq_ofPieces, Scan.ofPieces] at h
  have hindex : (tokensFrom {} (pieces source))[before.length]? = some t := by
    have hall := congrArg (fun ts : List Token => ts[before.length]?) h
    simp only [List.getElem?_append_right (Nat.le_refl _), Nat.sub_self, List.getElem?_cons_zero,
      List.getElem?_append] at hall
    split at hall
    · exact hall
    · rw [List.mem_singleton.1 (List.mem_of_getElem? hall)] at hkind
      cases hkind
  obtain ⟨ps, kind, text, qs, hpieces, hlength, rfl⟩ := exists_of_getElem?_tokensFrom hindex
  obtain rfl : kind = .string := hkind
  have hmem : .token .string text ∈ pieces source := by
    rw [hpieces]
    exact List.mem_append_right _ List.mem_cons_self
  obtain ⟨r, hr⟩ := exists_makes_of_mem_pieces hmem
  obtain ⟨body, -, rfl⟩ := Rule.mem_string_iff.1 (Rule.mem_string_of_makes hr)
  rw [hpieces, tokensFrom_append, List.append_assoc] at h
  exact ⟨ps, body, qs, hpieces, (List.append_inj h hlength).1, rfl⟩

/-- A token behind a front, with its line and its span as counted in the text. -/
theorem Token.startAt_after (front : List Char) (kind : Kind) (text : List Char) :
    startAt (Location.after {} front) kind text =
      { kind, lexeme := String.ofList text, literal := Literal.ofLexeme kind text,
        line := lineBehind (front ++ text), span := Span.behind front text } := by
  rw [startAt, between_after, ← Location.after_append, Location.after_start]

/-- What is found in a text is found in front of a token and behind it, besides the token. -/
theorem Scan.ofText_eq_of_token {kind : Kind} {text : List Char}
    (h : pieces source = ps ++ .token kind text :: qs) :
    let front := ps.flatMap Piece.text
    let behind := (Scan.ofText (qs.flatMap Piece.text)).shift (.behind (front ++ text))
    Scan.ofText source =
      ⟨tokensFrom {} ps ++
          { kind, lexeme := String.ofList text, literal := Literal.ofLexeme kind text,
            line := lineBehind (front ++ text), span := Span.behind front text } :: behind.tokens,
        errorsFrom {} ps ++ behind.errors⟩ := by
  intro front behind
  rw [← Token.startAt_after]
  exact Scan.ofText_eq_around h

/-- Whatever else stands between the quotes of a string, the tokens and errors in front of it are
the same, and those behind it say the same. -/
theorem Scan.ofText_replace_string {t : Token} {before after : List Token}
    (h : (Scan.ofText source).tokens = before ++ t :: after) (hkind : t.kind = .string) :
    ∃ front body back, t.span.Covers source front ('"' :: body ++ ['"']) back ∧
      t.lexeme.toList = '"' :: body ++ ['"'] ∧
      ∀ other, '"' ∉ other →
        let text := '"' :: other ++ ['"']
        let edited := front ++ text ++ back
        ∃ later es fs gs,
          (Scan.ofText edited).tokens = before ++
            { kind := .string, lexeme := String.ofList text,
              literal := some (.text (String.ofList other)), line := lineBehind (front ++ text),
              span := Span.behind front text } :: later ∧
          later.map Token.content = after.map Token.content ∧
          (Scan.ofText source).errors = es ++ fs ∧ (Scan.ofText edited).errors = es ++ gs ∧
          (∀ e ∈ es, e.start < t.span.start) ∧ (∀ e ∈ fs, t.span.stop ≤ e.start) ∧
          gs.map LexError.culprit? = fs.map LexError.culprit? := by
  obtain ⟨ps, body, qs, hpieces, rfl, rfl⟩ := exists_pieces_of_string h hkind
  have hscan := Scan.ofText_eq_of_token hpieces
  rw [Token.startAt_after] at h ⊢
  rw [hscan] at h ⊢
  obtain rfl := (List.cons.inj (List.append_cancel_left h)).2
  refine ⟨ps.flatMap Piece.text, body, qs.flatMap Piece.text,
    covers_behind (eq_append_of_pieces_eq hpieces), String.toList_ofList, ?_⟩
  intro other hother text edited
  have hedited := Scan.ofText_eq_of_token (pieces_replace_string hpieces hother)
  have hvalue : Literal.ofLexeme .string text = some (.text (String.ofList other)) := by
    simp [text, Literal.ofLexeme]
  rw [hvalue] at hedited
  refine ⟨_, errorsFrom {} ps, _, _, congrArg Scan.tokens hedited, ?_, rfl,
    congrArg Scan.errors hedited, fun e he => ?_, fun e he => ?_, ?_⟩
  · simp only [Scan.shift, List.map_map, Function.comp_def, Token.content_shift]
  · have hne : ∀ p ∈ ps, p.text ≠ [] := fun p => text_ne_nil_of_pieces_eq_append hpieces
    have hlt := start_lt_of_mem_errorsFrom he hne
    rwa [Location.offset_after, Nat.zero_add] at hlt
  · obtain ⟨f, -, rfl⟩ := List.mem_map.1 he
    rw [LexError.start_shift]
    exact Nat.le_add_left _ _
  · simp only [Scan.shift, List.map_map, Function.comp_def, LexError.culprit?_shift]

end

/-- What stands inside comments and strings is of no concern to the rest of a text. Whatever stands
behind the slashes of a comment, up to the newline or the end of the text, the same tokens and
errors are found with the same texts and values on the same lines and in the same columns, but for
the column of the end if nothing stands behind the comment, and offsets behind it move by the
difference in bytes. Whatever stands between the quotes of a string, the tokens and errors in front
of it are the same, it is one string with that text and that value, and the tokens and errors behind
it have the same kinds, texts, values and characters. -/
theorem scan_opaque (source : List Char) :
    (∀ ps body qs, pieces source = ps ++ .gap ('/' :: '/' :: body) :: qs →
      let front := ps.flatMap Piece.text
      let back := qs.flatMap Piece.text
      source = front ++ '/' :: '/' :: body ++ back ∧ '\n' ∉ body ∧ (∀ d ∈ back.head?, d = '\n') ∧
        ∀ other, '\n' ∉ other →
          let edited := front ++ '/' :: '/' :: other ++ back
          ∃ ts last, (Scan.ofText source).splice (.comment front body other) =
              ⟨ts ++ [last], (Scan.ofText edited).errors⟩ ∧ last.kind = .eof ∧
            (Scan.ofText edited).tokens = ts ++ [last.inColumn (columnBehind edited)] ∧
            (back ≠ [] → last.span.column = columnBehind edited)) ∧
    ∀ before t after, (Scan.ofText source).tokens = before ++ t :: after → t.kind = .string →
      ∃ front body back, t.span.Covers source front ('"' :: body ++ ['"']) back ∧
        t.lexeme.toList = '"' :: body ++ ['"'] ∧
        ∀ other, '"' ∉ other →
          let text := '"' :: other ++ ['"']
          let edited := front ++ text ++ back
          ∃ later es fs gs,
            (Scan.ofText edited).tokens = before ++
              { kind := .string, lexeme := String.ofList text,
                literal := some (.text (String.ofList other)), line := lineBehind (front ++ text),
                span := Span.behind front text } :: later ∧
            later.map Token.content = after.map Token.content ∧
            (Scan.ofText source).errors = es ++ fs ∧ (Scan.ofText edited).errors = es ++ gs ∧
            (∀ e ∈ es, e.start < t.span.start) ∧ (∀ e ∈ fs, t.span.stop ≤ e.start) ∧
            gs.map LexError.culprit? = fs.map LexError.culprit? := by
  refine ⟨fun ps body qs h => ?_, fun before t after h hkind => ?_⟩
  · obtain ⟨hbody, hback⟩ := Piece.first?_comment_append_iff.1 (first?_of_pieces_eq h)
    refine ⟨eq_append_of_pieces_eq h, hbody, hback, fun other hother => ?_⟩
    exact Scan.ofText_replace_comment h hother
  · exact Scan.ofText_replace_string h hkind

/-- A quote in a comment opens no string, and two slashes in a string start no comment. -/
theorem scan_opaque_quote :
    let source := ['/', '/', 'x', '\n', '"', 'b', '"', '#']
    let string : Token := ⟨.string, "\"b\"", some (.text "b"), 2, ⟨4, 7, 2, 1⟩⟩
    let last : Token := ⟨.eof, "", none, 2, ⟨8, 8, 2, 5⟩⟩
    pieces source = [] ++ .gap ['/', '/', 'x'] ::
        [.gap ['\n'], .token .string ['"', 'b', '"'], .stray '#'] ∧
      (Scan.ofText source).tokens = [] ++ string :: [last] ∧
      (Scan.ofText ['/', '/', '"', 'é', '\n', '"', 'b', '"', '#']).errors =
        [.unexpectedCharacter '#' ⟨9, 10, 2, 4⟩] ∧
      ∃ later, (Scan.ofText ['/', '/', 'x', '\n', '"', '/', '/', '\n', '"', '#']).tokens =
          ⟨.string, "\"//\n\"", some (.text "//\n"), 3, ⟨4, 9, 2, 1⟩⟩ :: later ∧
        later.map Token.content = [(.eof, "", none)] := by
  intro source string last
  have hpieces : pieces source = [] ++ .gap ['/', '/', 'x'] ::
      [.gap ['\n'], .token .string ['"', 'b', '"'], .stray '#'] := by decide +kernel
  have htokens : (Scan.ofText source).tokens = [] ++ string :: [last] := by decide +kernel
  obtain ⟨hcomments, hstrings⟩ := scan_opaque source
  obtain ⟨-, -, -, hcomment⟩ := hcomments [] ['x'] _ hpieces
  obtain ⟨ts, stop, hmoved, -⟩ := hcomment ['"', 'é'] (by decide)
  obtain ⟨front, body, back, hcovers, hlexeme, hstring⟩ := hstrings [] string [last] htokens rfl
  have hcut : Utf8.cut? source 4 = some (front, '"' :: body ++ ['"'] ++ back) :=
    Utf8.cut?_eq_some_iff.2
      ⟨by rw [hcovers.source_eq, List.append_assoc], hcovers.start_eq.symm⟩
  obtain ⟨rfl, hback⟩ := Prod.mk.inj (Option.some.inj hcut)
  have hquoted : string.lexeme.toList = ['"', 'b', '"'] := by decide
  rw [← hlexeme, hquoted] at hback
  obtain rfl : ['#'] = back := by simpa using hback
  obtain ⟨later, es, fs, gs, hedited, hlater, -⟩ := hstring ['/', '/', '\n'] (by decide)
  refine ⟨hpieces, htokens, ?_, later, hedited, hlater⟩
  exact (congrArg Scan.errors hmoved).symm.trans (by decide +kernel)

end LoxTokens
