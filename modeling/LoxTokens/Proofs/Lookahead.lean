import LoxTokens.Proofs.Endings
import LoxTokens.Proofs.Grammar.Cut
import LoxTokens.Proofs.Restart

/-!
# Text that is still to come

A lexer never looks further ahead than two characters. So whatever is added to a text, the tokens
behind which two more characters stand are settled, each at its place in the list, and so are the
characters that start nothing. Only a string or a comment at the end of the text, or a lexeme that
ends with it, can turn into something else.
-/

namespace LoxTokens

variable {source back : List Char} {ps : List Piece}

/-- Pieces in front of anything but the end or a last point stay as they are. -/
theorem pieces_append_of_settled (h : pieces source = ps ++ pieces back) (hne : back ≠ [])
    (hpoint : back ≠ ['.']) (more : List Char) :
    pieces (source ++ more) = ps ++ pieces (back ++ more) := by
  induction source using pieces_induction generalizing ps with
  | nil =>
    rw [pieces_nil, List.nil_eq_append_iff] at h
    exact absurd (eq_nil_of_pieces_eq_nil h.2) hne
  | piece p rest hfirst hends ih =>
    rw [pieces_text_append hfirst] at h
    cases ps with
    | nil =>
      have htext := flatMap_text_pieces back
      rw [List.nil_append] at h
      rw [← h, List.flatMap_cons, flatMap_text_pieces] at htext
      rw [htext, List.nil_append]
    | cons q qs =>
      rw [List.cons_append, List.cons.injEq] at h
      obtain ⟨rfl, hqs⟩ := h
      have hrest := flatMap_text_pieces rest
      rw [hqs, List.flatMap_append, flatMap_text_pieces] at hrest
      have hstays : p.EndsAt (rest ++ more) := by
        refine (Piece.endsAt_append_iff ?_ ?_ more p).2 hends
        · rw [← hrest]
          exact List.append_ne_nil_of_right_ne_nil _ hne
        · rw [← hrest]
          intro hsingle
          rcases List.append_eq_singleton_iff.1 hsingle with ⟨-, hback⟩ | ⟨-, hback⟩
          · exact hpoint hback
          · exact hne hback
      rw [List.append_assoc,
        pieces_text_append ((Piece.first?_text_append_iff hfirst _).2 hstays), ih hqs,
        List.cons_append]

/-- The token at an index stands behind as many tokens. -/
theorem exists_of_getElem?_tokensFrom {place : Location} {i : Nat} {t : Token}
    (h : (tokensFrom place ps)[i]? = some t) :
    ∃ qs kind text rs, ps = qs ++ .token kind text :: rs ∧ (tokensFrom place qs).length = i ∧
      t = Token.startAt (place.after (qs.flatMap Piece.text)) kind text := by
  induction ps generalizing place i with
  | nil => simp at h
  | cons p ps ih =>
    rw [tokensFrom_cons] at h
    cases p with
    | token kind text =>
      cases i with
      | zero => exact ⟨[], kind, text, ps, rfl, rfl, (Option.some.inj h).symm⟩
      | succ i =>
        obtain ⟨qs, k, u, rs, rfl, hlen, ht⟩ := ih h
        refine ⟨.token kind text :: qs, k, u, rs, rfl, ?_, by rw [ht]; simp⟩
        rw [tokensFrom_cons, List.length_append, hlen]
        exact Nat.add_comm 1 i
    | gap text | stray c | unclosed text =>
      obtain ⟨qs, k, u, rs, rfl, hlen, ht⟩ := ih h
      exact ⟨_ :: qs, k, u, rs, rfl, hlen, by rw [ht, List.flatMap_cons, Location.after_append]⟩

/-- A token behind which two characters stand is the same one whatever is added. -/
theorem getElem?_tokens_append {i : Nat} {t : Token} {front : List Char}
    (h : (Scan.ofText source).tokens[i]? = some t)
    (hcut : Utf8.cut? source t.span.stop = some (front, back)) (hback : 2 ≤ back.length)
    (more : List Char) : (Scan.ofText (source ++ more)).tokens[i]? = some t := by
  rw [Scan.ofText_eq_ofPieces, Scan.ofPieces, flatMap_text_pieces, List.getElem?_append] at h
  split at h
  · obtain ⟨qs, kind, text, rs, hpieces, rfl, rfl⟩ := exists_of_getElem?_tokensFrom h
    have hsplit : pieces source = (qs ++ [Piece.token kind text]) ++ rs := by simp [hpieces]
    obtain ⟨tail, htail, hsource⟩ := exists_tail_of_pieces_eq hsplit
    have hstop : Utf8.size ((qs ++ [Piece.token kind text]).flatMap Piece.text) =
        (Token.startAt (Location.after {} (qs.flatMap Piece.text)) kind text).span.stop := by
      simp only [Token.startAt, Span.between, Location.offset_after]
      simp [Piece.text]
    have hown := Utf8.cut?_eq_some_iff.2 ⟨hsource, hstop⟩
    obtain ⟨-, rfl⟩ := Prod.mk.inj (Option.some.inj (hcut.symm.trans hown))
    have hne : back ≠ [] := by
      rintro rfl
      simp at hback
    have hpoint : back ≠ ['.'] := by
      rintro rfl
      simp at hback
    rw [Scan.ofText_eq_ofPieces, Scan.ofPieces, pieces_append_of_settled htail hne hpoint,
      tokensFrom_append, tokensFrom_append]
    simp [tokensFrom_cons, Piece.token?]
  · -- Nothing stands behind the token that ends the text.
    obtain rfl := List.mem_singleton.1 (List.mem_of_getElem? h)
    have hend : Utf8.cut? source (Token.endAt (Location.after {} source)).span.stop =
        some (source, []) := by
      refine Utf8.cut?_eq_some_iff.2 ⟨(List.append_nil source).symm, ?_⟩
      rw [Token.endAt, Token.eof, Span.between, Location.offset_after, Nat.zero_add]
    obtain ⟨-, rfl⟩ := Prod.mk.inj (Option.some.inj (hcut.symm.trans hend))
    simp at hback

/-- The characters that start nothing are the same ones whatever is added. -/
theorem errorsFrom_append_prefix (place : Location) (source more : List Char) :
    (errorsFrom place (pieces source)).filter (·.culprit?.isSome) <+:
      errorsFrom place (pieces (source ++ more)) := by
  induction source using pieces_induction generalizing place with
  | nil => simp
  | piece p rest hfirst hends ih =>
    have hrest := ih (place.after p.text)
    rw [pieces_text_append hfirst, errorsFrom_cons, List.filter_append]
    by_cases hstays : p.EndsAt (rest ++ more)
    · rw [List.append_assoc, pieces_text_append ((Piece.first?_text_append_iff hfirst _).2 hstays),
        errorsFrom_cons]
      cases p with
      | token | gap => exact hrest
      | stray c => exact (List.prefix_append_right_inj _).2 hrest
      | unclosed text =>
        obtain rfl : rest = [] := hends
        simp [Piece.error?, LexError.culprit?]
    · -- Only a piece in front of the end or of a last point can be lengthened.
      have hlast : rest = [] ∨ rest = ['.'] := by
        by_contra hno
        rw [not_or] at hno
        exact hstays ((Piece.endsAt_append_iff hno.1 hno.2 more p).2 hends)
      have hnone : errorsFrom (place.after p.text) (pieces rest) = [] := by
        rcases hlast with rfl | rfl
        · simp
        · have hdot : pieces ['.'] = .token (.symbol .dot) ['.'] :: pieces [] :=
            @pieces_text_append (.token (.symbol .dot) ['.']) [] rfl
          simp [hdot, errorsFrom_cons, Piece.error?]
      rw [hnone]
      cases p with
      | token | gap => simp [Piece.error?]
      | stray c => exact absurd trivial hstays
      | unclosed text => simp [Piece.error?, LexError.culprit?]

/-- A lexer looks ahead by two characters at most. Whatever is added to a text, each of its tokens
behind which at least two characters of the text stand is the same one at the same index, with its
kind, its text, its value and its place, and the characters that start nothing are reported first,
in order and as before. -/
theorem scan_append_settled (source more : List Char) :
    (∀ (i : Nat) (t : Token) (front back : List Char),
      (Scan.ofText source).tokens[i]? = some t →
      Utf8.cut? source t.span.stop = some (front, back) → 2 ≤ back.length →
        (Scan.ofText (source ++ more)).tokens[i]? = some t) ∧
      (Scan.ofText source).errors.filter (·.culprit?.isSome) <+:
        (Scan.ofText (source ++ more)).errors := by
  constructor
  · intro i t front back h hcut hback
    exact getElem?_tokens_append h hcut hback more
  · rw [Scan.ofText_eq_ofPieces, Scan.ofText_eq_ofPieces]
    exact errorsFrom_append_prefix {} source more

/-- Two characters are needed: with nothing but a point behind it a number can still go on. -/
theorem scan_append_settled_number :
    let source := ['é', '1', '.', '"']
    let one : Token :=
      ⟨.number, "1", some (.number (Binary64.ofNumeral ['1'])), 1, ⟨2, 3, 1, 2⟩⟩
    (Scan.ofText source).tokens[0]? = some one ∧
      Utf8.cut? source one.span.stop = some (['é', '1'], ['.', '"']) ∧
      (Scan.ofText (source ++ ['2', '"'])).tokens[0]? = some one ∧
      (Scan.ofText (source ++ ['2', '"'])).errors = [.unexpectedCharacter 'é' ⟨0, 2, 1, 1⟩] ∧
      (Scan.ofText ['é', '1', '.']).tokens[0]? = some one ∧
      (Scan.ofText ['é', '1', '.', '2']).tokens[0]? ≠ some one := by
  intro source one
  have h : (Scan.ofText source).tokens[0]? = some one := by decide +kernel
  have hcut : Utf8.cut? source one.span.stop = some (['é', '1'], ['.', '"']) := by decide +kernel
  have hadded := (scan_append_settled source ['2', '"']).1 0 one _ _ h hcut (by decide)
  exact ⟨h, hcut, hadded, by decide +kernel⟩

end LoxTokens
