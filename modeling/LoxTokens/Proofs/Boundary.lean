import LoxTokens.Proofs.Endings

/-!
# Boundaries

A piece stops at a character if it stays as it is whenever that character comes next, whatever
stands behind that. Tokens stop at blanks and newlines, comments at newlines only. Where all pieces
of a text stop, the text and what is put behind it fall apart one by one.
-/

namespace LoxTokens

namespace Piece

/-- The piece stays as it is if this character comes next. -/
def StopsAt (d : Char) : Piece → Prop
  | token .. => Text.isSpace d = true
  | gap _ => d = '\n'
  | stray _ => True
  | unclosed _ => False

variable {p : Piece} {d : Char} {rest : List Char}

/-- Nothing that starts with such a character lengthens the piece. -/
theorem StopsAt.endsAt (h : p.StopsAt d) (tail : List Char) : p.EndsAt (d :: tail) := by
  cases p with
  | token kind text =>
    have hpoint : d ≠ '.' := Text.ne_of_test h rfl
    cases kind with
    | symbol s =>
      intro e he
      obtain rfl : d = e := Option.some.inj he
      refine ⟨fun _ => Text.ne_of_test h rfl, fun t ht => ?_⟩
      obtain ⟨-, rfl⟩ := Symbol.exists_spelling_append_iff.1 ⟨t, ht⟩
      cases h
    | number =>
      constructor
      · intro e he
        obtain rfl : d = e := Option.some.inj he
        exact Text.isDigit_of_isSpace h
      · intro _ hd
        exact absurd (Option.some.inj hd) hpoint
    | string => trivial
    | identifier | keyword | eof =>
      intro e he
      obtain rfl : d = e := Option.some.inj he
      exact Text.isWordChar_of_isSpace h
  | gap text =>
    intro _ e he
    obtain rfl : d = e := Option.some.inj he
    exact h
  | stray => trivial
  | unclosed => exact absurd h id

/-- Neither does such a character at the end of the text behind the piece. -/
theorem EndsAt.append_cons (hends : p.EndsAt rest) (h : p.StopsAt d) (tail : List Char) :
    p.EndsAt (rest ++ d :: tail) := by
  cases rest with
  | nil => exact h.endsAt tail
  | cons e rest =>
    cases p with
    | token kind text =>
      cases kind with
      | number =>
        refine ⟨hends.1, fun hno hpoint x hx => ?_⟩
        cases rest with
        | nil =>
          obtain rfl : d = x := Option.some.inj hx
          exact Text.isDigit_of_isSpace h
        | cons f rest => exact hends.2 hno hpoint x hx
      | symbol | string | identifier | keyword | eof => exact hends
    | gap | stray => exact hends
    | unclosed => exact absurd h id

end Piece

/-- A text all of whose pieces stop at a character falls apart on its own, whatever follows the
character. -/
theorem pieces_append {text : List Char} {d : Char} (h : ∀ p ∈ pieces text, p.StopsAt d)
    (tail : List Char) : pieces (text ++ d :: tail) = pieces text ++ pieces (d :: tail) := by
  induction text using pieces_induction with
  | nil => rw [pieces_nil, List.nil_append, List.nil_append]
  | piece p rest hfirst hends ih =>
    rw [pieces_text_append hfirst] at h ⊢
    obtain ⟨hp, hrest⟩ := List.forall_mem_cons.1 h
    have hstays := (Piece.first?_text_append_iff hfirst _).2 (hends.append_cons hp tail)
    rw [List.append_assoc, pieces_text_append hstays, ih hrest, List.cons_append]

/-- A newline behind a text in which every string is closed is a gap of its own. -/
theorem pieces_append_newline {text : List Char} (h : ∀ part, .unclosed part ∉ pieces text)
    (tail : List Char) :
    pieces (text ++ '\n' :: tail) = pieces text ++ .gap ['\n'] :: pieces tail := by
  have hstop : ∀ p ∈ pieces text, p.StopsAt '\n' := by
    intro p hp
    cases p with
    | token | gap => rfl
    | stray => trivial
    | unclosed part => exact absurd hp (h part)
  rw [pieces_append hstop, pieces_cons, Piece.first_of_isSpace rfl]
  rfl

end LoxTokens
