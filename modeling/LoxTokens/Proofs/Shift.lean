import LoxTokens.Proofs.Places

/-!
# Shifts

Text in front of a text moves all of its places: every byte of it counts, every newline, and on the
line that it leaves open every character. So the columns of the first line move and no others. What
is said about pieces in front of which something stands is what is said about them alone, shifted.
-/

namespace LoxTokens

/-- How far places are moved by what stands in front of them. -/
structure Shift where
  /-- How many bytes. -/
  bytes : Nat
  /-- How many lines. -/
  lines : Nat
  /-- How many columns, on the first line only. -/
  columns : Nat
  deriving DecidableEq, Repr

/-- How far a front moves what stands behind it. -/
def Shift.behind (front : List Char) : Shift :=
  ⟨Utf8.size front, lineBehind front - 1, columnBehind front - 1⟩

namespace Location

/-- Move a place. -/
def shift (k : Shift) (l : Location) : Location where
  offset := l.offset + k.bytes
  line := l.line + k.lines
  column := if l.line = 1 then l.column + k.columns else l.column

end Location

/-- Move a span. -/
def Span.shift (k : Shift) (s : Span) : Span where
  start := s.start + k.bytes
  stop := s.stop + k.bytes
  line := s.line + k.lines
  column := if s.line = 1 then s.column + k.columns else s.column

/-- Move a token, which keeps its kind, its text and its value. -/
def Token.shift (k : Shift) (t : Token) : Token :=
  { t with line := t.line + k.lines, span := t.span.shift k }

/-- Move an error with all the spans that it knows of. -/
def LexError.shift (k : Shift) : LexError → LexError
  | unexpectedCharacter c span => unexpectedCharacter c (span.shift k)
  | unterminatedString opened span => unterminatedString (opened.shift k) (span.shift k)

/-- Move all tokens and all errors of a scan. -/
def Scan.shift (k : Shift) (s : Scan) : Scan :=
  ⟨s.tokens.map (Token.shift k), s.errors.map (LexError.shift k)⟩

namespace Location

variable {k : Shift} {l : Location}

/-- A place moves on alike wherever it has been moved to. -/
theorem next_shift (h : 0 < l.line) (c : Char) : (l.shift k).next c = (l.next c).shift k := by
  unfold next
  split
  · -- Behind a newline a place is on the first line no more.
    have hl : l.line + 1 ≠ 1 := by omega
    simp only [shift, hl, if_false, mk.injEq, and_true]
    omega
  · by_cases hl : l.line = 1
    · simp only [shift, hl, if_true, mk.injEq, true_and]
      omega
    · simp only [shift, hl, if_false, mk.injEq, and_true]
      omega

theorem after_shift (h : 0 < l.line) (text : List Char) :
    (l.shift k).after text = (l.after text).shift k := by
  induction text generalizing l with
  | nil => rfl
  | cons c text ih =>
    have hnext : 0 < (l.next c).line := Nat.lt_of_lt_of_le h (l.upto_after [c]).line_le
    rw [after_cons, next_shift h, ih hnext, after_cons]

/-- The place behind a front is the start of all texts, moved by that front. -/
theorem after_eq_shift (front : List Char) : after {} front = shift (Shift.behind front) {} := by
  have hline : 1 ≤ lineBehind front := Nat.le_add_right 1 _
  have hcolumn : 1 ≤ columnBehind front := Nat.le_add_right 1 _
  rw [after_start]
  simp only [shift, Shift.behind, if_true, mk.injEq]
  omega

end Location

theorem Span.between_shift (k : Shift) (a b : Location) :
    between (a.shift k) (b.shift k) = (between a b).shift k := rfl

section

variable {k : Shift} {place : Location}

/-- A piece that has been moved makes the token that it makes alone, moved. -/
theorem Piece.token?_shift (h : 0 < place.line) (p : Piece) :
    p.token? (place.shift k) = (p.token? place).map (Token.shift k) := by
  cases p with
  | token kind text =>
    simp only [token?, Token.startAt, Location.after_shift h, Span.between_shift]
    rfl
  | gap | stray | unclosed => rfl

theorem Piece.error?_shift (h : 0 < place.line) (p : Piece) :
    p.error? (place.shift k) = (p.error? place).map (LexError.shift k) := by
  cases p with
  | stray c =>
    simp only [error?, Location.next_shift h, Span.between_shift]
    rfl
  | unclosed text =>
    simp only [error?, Location.next_shift h, Location.after_shift h, Span.between_shift]
    rfl
  | token | gap => rfl

theorem tokensFrom_shift (h : 0 < place.line) (ps : List Piece) :
    tokensFrom (place.shift k) ps = (tokensFrom place ps).map (Token.shift k) := by
  induction ps generalizing place with
  | nil => rfl
  | cons p ps ih =>
    have hp : 0 < (place.after p.text).line :=
      Nat.lt_of_lt_of_le h (place.upto_after p.text).line_le
    rw [tokensFrom_cons, tokensFrom_cons, Piece.token?_shift h, Location.after_shift h, ih hp,
      List.map_append, Option.toList_map]

theorem errorsFrom_shift (h : 0 < place.line) (ps : List Piece) :
    errorsFrom (place.shift k) ps = (errorsFrom place ps).map (LexError.shift k) := by
  induction ps generalizing place with
  | nil => rfl
  | cons p ps ih =>
    have hp : 0 < (place.after p.text).line :=
      Nat.lt_of_lt_of_le h (place.upto_after p.text).line_le
    rw [errorsFrom_cons, errorsFrom_cons, Piece.error?_shift h, Location.after_shift h, ih hp,
      List.map_append, Option.toList_map]

end

/-- Where the pieces of a text are those of a front and those of a tail, its scan is what the front
makes and then the scan of the tail, moved behind the front. -/
theorem Scan.ofText_eq_append {source front tail : List Char} {ps : List Piece}
    (h : pieces source = ps ++ pieces tail) (hfront : ps.flatMap Piece.text = front) :
    Scan.ofText source =
      ⟨tokensFrom {} ps ++ ((Scan.ofText tail).shift (.behind front)).tokens,
        errorsFrom {} ps ++ ((Scan.ofText tail).shift (.behind front)).errors⟩ := by
  have hplace := Location.after_eq_shift front
  have hend : Location.after {} source = (Location.after {} tail).shift (.behind front) := by
    have hsource := flatMap_text_pieces source
    rw [h, List.flatMap_append, flatMap_text_pieces, hfront] at hsource
    rw [← hsource, Location.after_append, hplace, Location.after_shift Nat.one_pos]
  rw [Scan.ofText_eq_ofPieces, Scan.ofText_eq_ofPieces, Scan.ofPieces, Scan.ofPieces,
    flatMap_text_pieces, flatMap_text_pieces, hend, h, tokensFrom_append, errorsFrom_append, hfront,
    hplace, tokensFrom_shift Nat.one_pos, errorsFrom_shift Nat.one_pos, Scan.shift, List.map_append,
    List.append_assoc]
  rfl

end LoxTokens
