import LoxTokens.LexError
import LoxTokens.Piece
import LoxTokens.Token.Basic

/-!
# Scans

A scan holds the tokens and the errors of a text. Pieces that follow one another make one: some
are tokens, some are errors, and gaps are neither, each at the place where it stands. One more
token ends the list. An error never stops a scan.
-/

namespace LoxTokens

namespace Piece

/-- The token of a piece that stands at a place. -/
def token? (place : Location) : Piece → Option Token
  | token kind text => some (Token.startAt place kind text)
  | _ => none

theorem token?_eq_some_iff {place : Location} {p : Piece} {t : Token} :
    p.token? place = some t ↔
      ∃ kind text, p = token kind text ∧ t = Token.startAt place kind text := by
  constructor
  · intro h
    cases p with
    | token kind text => exact ⟨kind, text, rfl, (Option.some.inj h).symm⟩
    | gap | stray | unclosed => cases h
  · rintro ⟨kind, text, rfl, rfl⟩
    rfl

/-- The error of a piece that stands at a place. -/
def error? (place : Location) : Piece → Option LexError
  | stray c => some (.unexpectedCharacter c (Span.between place (place.next c)))
  | unclosed text =>
    let last := place.after text
    some (.unterminatedString (Span.between place (place.next '"')) (Span.between last last))
  | _ => none

end Piece

/-- Each of the pieces that follow one another from a place on, with its own place. -/
def located (place : Location) : List Piece → List (Location × Piece)
  | [] => []
  | p :: ps => (place, p) :: located (place.after p.text) ps

/-- The tokens among pieces that follow one another from a place on. -/
def tokensFrom (place : Location) (ps : List Piece) : List Token :=
  (located place ps).filterMap fun (place, p) => p.token? place

/-- The errors among pieces that follow one another from a place on. -/
def errorsFrom (place : Location) (ps : List Piece) : List LexError :=
  (located place ps).filterMap fun (place, p) => p.error? place

/-- The tokens of a list that do not end a text. -/
def proper (ts : List Token) : List Token := ts.filter (!·.isEof)

/-- The tokens and the errors of a text. -/
structure Scan where
  /-- The tokens in order, the last one ending the text. -/
  tokens : List Token
  /-- The errors in order. -/
  errors : List LexError
  deriving DecidableEq, Repr

namespace Scan

/-- The scan that pieces following one another make. -/
def ofPieces (ps : List Piece) : Scan where
  tokens := tokensFrom {} ps ++ [Token.endAt (Location.after {} (ps.flatMap Piece.text))]
  errors := errorsFrom {} ps

/-- Something is wrong with the text. -/
def hasErrors (s : Scan) : Bool := !s.errors.isEmpty

/-- What is reported about the text. -/
def diagnostics (s : Scan) : List Diagnostic := s.errors.map LexError.diagnostic

end Scan

theorem proper_append (ts us : List Token) : proper (ts ++ us) = proper ts ++ proper us :=
  List.filter_append ..

@[simp] theorem located_cons (place : Location) (p : Piece) (ps : List Piece) :
    located place (p :: ps) = (place, p) :: located (place.after p.text) ps := rfl

/-- Locating pieces keeps all of them in order. -/
theorem map_snd_located (place : Location) (ps : List Piece) :
    (located place ps).map Prod.snd = ps := by
  induction ps generalizing place with
  | nil => rfl
  | cons p ps ih => rw [located_cons, List.map_cons, ih]

/-- Pieces behind others stand behind the text of the others. -/
theorem located_append (place : Location) (ps qs : List Piece) :
    located place (ps ++ qs) =
      located place ps ++ located (place.after (ps.flatMap Piece.text)) qs := by
  induction ps generalizing place with
  | nil => rfl
  | cons p ps ih =>
    rw [List.cons_append, located_cons, located_cons, ih, List.flatMap_cons,
      Location.after_append, List.cons_append]

@[simp] theorem tokensFrom_nil (place : Location) : tokensFrom place [] = [] := rfl

@[simp] theorem errorsFrom_nil (place : Location) : errorsFrom place [] = [] := rfl

theorem tokensFrom_cons (place : Location) (p : Piece) (ps : List Piece) :
    tokensFrom place (p :: ps) =
      (p.token? place).toList ++ tokensFrom (place.after p.text) ps := by
  cases h : p.token? place <;> simp [tokensFrom, h]

theorem errorsFrom_cons (place : Location) (p : Piece) (ps : List Piece) :
    errorsFrom place (p :: ps) =
      (p.error? place).toList ++ errorsFrom (place.after p.text) ps := by
  cases h : p.error? place <;> simp [errorsFrom, h]

theorem tokensFrom_append (place : Location) (ps qs : List Piece) :
    tokensFrom place (ps ++ qs) =
      tokensFrom place ps ++ tokensFrom (place.after (ps.flatMap Piece.text)) qs := by
  rw [tokensFrom, located_append, List.filterMap_append, tokensFrom, tokensFrom]

theorem errorsFrom_append (place : Location) (ps qs : List Piece) :
    errorsFrom place (ps ++ qs) =
      errorsFrom place ps ++ errorsFrom (place.after (ps.flatMap Piece.text)) qs := by
  rw [errorsFrom, located_append, List.filterMap_append, errorsFrom, errorsFrom]

/-- Every token among located pieces is the one of a token piece and its place. -/
theorem mem_tokensFrom_iff {place : Location} {ps : List Piece} {t : Token} :
    t ∈ tokensFrom place ps ↔
      ∃ here kind text, (here, .token kind text) ∈ located place ps ∧
        t = Token.startAt here kind text := by
  rw [tokensFrom, List.mem_filterMap]
  constructor
  · rintro ⟨⟨here, p⟩, hp, ht⟩
    obtain ⟨kind, text, rfl, rfl⟩ := Piece.token?_eq_some_iff.1 ht
    exact ⟨here, kind, text, hp, rfl⟩
  · rintro ⟨here, kind, text, hp, rfl⟩
    exact ⟨(here, .token kind text), hp, rfl⟩

/-- Every character that is reported is a piece of its own. -/
theorem unexpectedCharacter_mem_errorsFrom_iff {place : Location} {ps : List Piece} {c : Char}
    {s : Span} :
    .unexpectedCharacter c s ∈ errorsFrom place ps ↔
      ∃ here, (here, .stray c) ∈ located place ps ∧ s = Span.between here (here.next c) := by
  rw [errorsFrom, List.mem_filterMap]
  constructor
  · rintro ⟨⟨here, p⟩, hp, he⟩
    cases p with
    | stray d =>
      cases he
      exact ⟨here, hp, rfl⟩
    | token | gap | unclosed => cases he
  · rintro ⟨here, hp, rfl⟩
    exact ⟨(here, .stray c), hp, rfl⟩

/-- Every string that is reported is a piece that is not closed. -/
theorem unterminatedString_mem_errorsFrom_iff {place : Location} {ps : List Piece}
    {opened s : Span} :
    .unterminatedString opened s ∈ errorsFrom place ps ↔
      ∃ here text, (here, .unclosed text) ∈ located place ps ∧
        opened = Span.between here (here.next '"') ∧
        s = Span.between (here.after text) (here.after text) := by
  rw [errorsFrom, List.mem_filterMap]
  constructor
  · rintro ⟨⟨here, p⟩, hp, he⟩
    cases p with
    | unclosed text =>
      cases he
      exact ⟨here, text, hp, rfl, rfl⟩
    | token | gap | stray => cases he
  · rintro ⟨here, text, hp, rfl, rfl⟩
    exact ⟨(here, .unclosed text), hp, rfl⟩

/-- A located piece is one of the pieces. -/
theorem mem_of_mem_located {place here : Location} {p : Piece} {ps : List Piece}
    (h : (here, p) ∈ located place ps) : p ∈ ps := by
  rw [← map_snd_located place ps]
  exact List.mem_map_of_mem h

/-- A located piece stands behind the text of the pieces before it. -/
theorem exists_of_mem_located {place here : Location} {p : Piece} {ps : List Piece}
    (h : (here, p) ∈ located place ps) :
    ∃ qs rs, ps = qs ++ p :: rs ∧ here = place.after (qs.flatMap Piece.text) := by
  induction ps generalizing place with
  | nil => cases h
  | cons q ps ih =>
    rcases List.mem_cons.1 h with he | h
    · obtain ⟨rfl, rfl⟩ := Prod.mk.inj he
      exact ⟨[], ps, rfl, rfl⟩
    · obtain ⟨qs, rs, rfl, rfl⟩ := ih h
      exact ⟨q :: qs, rs, rfl, by rw [List.flatMap_cons, Location.after_append]⟩

/-- No token of the pieces of a text ends it. -/
theorem kind_ne_eof_of_mem_tokensFrom {place : Location} {source : List Char} {t : Token}
    (h : t ∈ tokensFrom place (pieces source)) : t.kind ≠ .eof := by
  obtain ⟨here, kind, text, hp, rfl⟩ := mem_tokensFrom_iff.1 h
  exact kind_ne_eof_of_mem_pieces (mem_of_mem_located hp)

end LoxTokens
