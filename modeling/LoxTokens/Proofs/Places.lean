import Mathlib.Data.List.DropRight
import Mathlib.Data.List.Induction
import LoxTokens.Proofs.Passage

/-!
# Places

What a scan says about places is true of the text. Lines are counted by the newlines in front of a
place, columns by the characters behind the last of them, and offsets by bytes. A span selects the
text of its token or its character, the end of a scan is the end of the text, and no token starts
before the one in front of it has ended.
-/

namespace LoxTokens

/-- The line behind a text: one more than its newlines. -/
def lineBehind (front : List Char) : Nat := 1 + front.count '\n'

/-- The column behind a text: one more than the characters behind its last newline. -/
def columnBehind (front : List Char) : Nat := 1 + (front.rtakeWhile (· != '\n')).length

/-- The span of a text behind a front. -/
def Span.behind (front text : List Char) : Span :=
  ⟨Utf8.size front, Utf8.size (front ++ text), lineBehind front, columnBehind front⟩

/-- A span covers a text between a front and a back of the source. It starts and stops between
characters, and knows the line and the column of its start. -/
structure Span.Covers (source : List Char) (s : Span) (front text back : List Char) : Prop where
  /-- The text stands between the front and the back. -/
  source_eq : source = front ++ text ++ back
  /-- The span starts behind the front. -/
  start_eq : s.start = Utf8.size front
  /-- The span stops behind the text. -/
  stop_eq : s.stop = Utf8.size (front ++ text)
  /-- Its line is the one of the start. -/
  line_eq : s.line = lineBehind front
  /-- Its column is the one of the start. -/
  column_eq : s.column = columnBehind front

/-- The span of a text selects it. -/
theorem Span.Covers.slice? {source front text back : List Char} {s : Span}
    (h : s.Covers source front text back) :
    s.slice? (String.ofList source) = some (String.ofList text) := by
  have hs : Utf8.slice? source s.start s.stop = some text :=
    Utf8.slice?_eq_some_iff.2 ⟨front, back, h.source_eq, h.start_eq.symm, h.stop_eq.symm⟩
  rw [Span.slice?, String.toList_ofList, hs]
  rfl

/-- Where the text starts that is in error: the character, or the quote that opens the string. -/
def LexError.start : LexError → Nat
  | unexpectedCharacter _ span => span.start
  | unterminatedString opened _ => opened.start

namespace Location

/-- A place behind a text counts its bytes, its newlines, and the characters of its last line. -/
theorem after_start (front : List Char) :
    after {} front = ⟨Utf8.size front, lineBehind front, columnBehind front⟩ := by
  induction front using List.reverseRecOn with
  | nil => rfl
  | append_singleton front c ih =>
    rw [after_append, ih, after_cons, after_nil, next]
    by_cases hc : c = '\n'
    · simp [hc, lineBehind, columnBehind, Nat.add_assoc]
    · simp [hc, lineBehind, columnBehind, Nat.add_assoc]

/-- A place is not behind another one: a text stands between them, which may be empty. -/
def Upto (a b : Location) : Prop := ∃ text, b = a.after text

variable {a b c : Location}

theorem Upto.trans (hab : a.Upto b) (hbc : b.Upto c) : a.Upto c := by
  obtain ⟨s, rfl⟩ := hab
  obtain ⟨t, rfl⟩ := hbc
  exact ⟨s ++ t, (after_append a s t).symm⟩

theorem upto_after (a : Location) (text : List Char) : a.Upto (a.after text) := ⟨text, rfl⟩

/-- Offsets do not fall on the way. -/
theorem Upto.offset_le (h : a.Upto b) : a.offset ≤ b.offset := by
  obtain ⟨text, rfl⟩ := h
  rw [offset_after]
  exact Nat.le_add_right _ _

/-- Neither do lines. -/
theorem Upto.line_le (h : a.Upto b) : a.line ≤ b.line := by
  obtain ⟨text, rfl⟩ := h
  induction text generalizing a with
  | nil => exact Nat.le_refl _
  | cons c text ih =>
    have hc : a.line ≤ (a.next c).line := by
      unfold next
      split <;> simp
    exact Nat.le_trans hc ih

end Location

/-- A located piece stands behind the place where all of them start. -/
theorem upto_of_mem_located {place here : Location} {p : Piece} {ps : List Piece}
    (h : (here, p) ∈ located place ps) : place.Upto here := by
  obtain ⟨qs, rs, -, rfl⟩ := exists_of_mem_located h
  exact place.upto_after _

/-- The place behind a located piece is not behind the place where all of them stop. -/
theorem upto_after_of_mem_located {place here : Location} {p : Piece} {ps : List Piece}
    (h : (here, p) ∈ located place ps) :
    (here.after p.text).Upto (place.after (ps.flatMap Piece.text)) := by
  obtain ⟨qs, rs, rfl, rfl⟩ := exists_of_mem_located h
  rw [List.flatMap_append, List.flatMap_cons, Location.after_append, Location.after_append]
  exact Location.upto_after _ _

/-- Of two located pieces the second starts where the first has stopped, or behind that place. -/
theorem pairwise_located (place : Location) (ps : List Piece) :
    (located place ps).Pairwise fun a b => (a.1.after a.2.text).Upto b.1 := by
  induction ps generalizing place with
  | nil => exact List.Pairwise.nil
  | cons p ps ih =>
    rw [located_cons]
    refine List.Pairwise.cons (fun b hb => ?_) (ih (place.after p.text))
    exact upto_of_mem_located hb

/-- No token starts before the one in front of it has stopped, and lines do not fall. -/
theorem pairwise_tokensFrom (place : Location) (ps : List Piece) :
    (tokensFrom place ps).Pairwise fun a b => a.span.stop ≤ b.span.start ∧ a.line ≤ b.line := by
  refine (pairwise_located place ps).filterMap _ ?_
  rintro ⟨here, p⟩ ⟨there, q⟩ hup a ha b hb
  obtain ⟨kind, text, rfl, rfl⟩ := Piece.token?_eq_some_iff.1 ha
  obtain ⟨kind', text', rfl, rfl⟩ := Piece.token?_eq_some_iff.1 hb
  have hline := there.upto_after text'
  exact ⟨hup.offset_le, (hup.trans hline).line_le⟩

/-- No token stops behind the place where its pieces stop. -/
theorem stop_le_of_mem_tokensFrom {place : Location} {ps : List Piece} {t : Token}
    (h : t ∈ tokensFrom place ps) :
    t.span.stop ≤ (place.after (ps.flatMap Piece.text)).offset ∧
      t.line ≤ (place.after (ps.flatMap Piece.text)).line := by
  obtain ⟨here, kind, text, hp, rfl⟩ := mem_tokensFrom_iff.1 h
  have hup := upto_after_of_mem_located hp
  exact ⟨hup.offset_le, hup.line_le⟩

/-- No error stops behind the place where its pieces stop. -/
theorem stop_le_of_mem_errorsFrom {place : Location} {ps : List Piece} {e : LexError}
    (h : e ∈ errorsFrom place ps) :
    e.span.stop ≤ (place.after (ps.flatMap Piece.text)).offset := by
  cases e with
  | unexpectedCharacter c s =>
    obtain ⟨here, hp, rfl⟩ := unexpectedCharacter_mem_errorsFrom_iff.1 h
    exact (upto_after_of_mem_located hp).offset_le
  | unterminatedString opened s =>
    obtain ⟨here, text, hp, -, rfl⟩ := unterminatedString_mem_errorsFrom_iff.1 h
    exact (upto_after_of_mem_located hp).offset_le

/-- An error starts where its piece does. -/
theorem exists_located_of_mem_errorsFrom {place : Location} {ps : List Piece} {e : LexError}
    (h : e ∈ errorsFrom place ps) :
    ∃ here p, (here, p) ∈ located place ps ∧ e.start = here.offset := by
  cases e with
  | unexpectedCharacter c s =>
    obtain ⟨here, hp, rfl⟩ := unexpectedCharacter_mem_errorsFrom_iff.1 h
    exact ⟨here, _, hp, rfl⟩
  | unterminatedString opened s =>
    obtain ⟨here, text, hp, rfl, -⟩ := unterminatedString_mem_errorsFrom_iff.1 h
    exact ⟨here, _, hp, rfl⟩

/-- No error starts in front of the place where its pieces start. -/
theorem le_start_of_mem_errorsFrom {place : Location} {ps : List Piece} {e : LexError}
    (h : e ∈ errorsFrom place ps) : place.offset ≤ e.start := by
  obtain ⟨here, p, hp, he⟩ := exists_located_of_mem_errorsFrom h
  rw [he]
  exact (upto_of_mem_located hp).offset_le

/-- A piece among pieces that are not empty starts in front of the place where they stop. -/
theorem offset_lt_of_mem_located {place here : Location} {p : Piece} {ps : List Piece}
    (h : (here, p) ∈ located place ps) (hne : ∀ p ∈ ps, p.text ≠ []) :
    here.offset < (place.after (ps.flatMap Piece.text)).offset := by
  have hstop := (upto_after_of_mem_located h).offset_le
  have hpos : Utf8.size p.text ≠ 0 :=
    mt Utf8.eq_nil_of_size_eq_zero (hne p (mem_of_mem_located h))
  rw [Location.offset_after] at hstop
  omega

/-- So does a token. -/
theorem start_lt_of_mem_tokensFrom {place : Location} {ps : List Piece} {t : Token}
    (h : t ∈ tokensFrom place ps) (hne : ∀ p ∈ ps, p.text ≠ []) :
    t.span.start < (place.after (ps.flatMap Piece.text)).offset := by
  obtain ⟨here, kind, text, hp, rfl⟩ := mem_tokensFrom_iff.1 h
  exact offset_lt_of_mem_located hp hne

/-- So does an error. -/
theorem start_lt_of_mem_errorsFrom {place : Location} {ps : List Piece} {e : LexError}
    (h : e ∈ errorsFrom place ps) (hne : ∀ p ∈ ps, p.text ≠ []) :
    e.start < (place.after (ps.flatMap Piece.text)).offset := by
  obtain ⟨here, p, hp, he⟩ := exists_located_of_mem_errorsFrom h
  rw [he]
  exact offset_lt_of_mem_located hp hne

variable {source : List Char} {here : Location} {p : Piece}

/-- The span between the places behind a front and behind the text that follows it. -/
theorem between_after (front text : List Char) :
    Span.between (Location.after {} front) ((Location.after {} front).after text) =
      Span.behind front text := by
  have hstart := Location.after_start front
  have hstop := Location.after_start (front ++ text)
  rw [← Location.after_append, hstart, hstop]
  rfl

/-- That span covers the text. -/
theorem covers_behind {front text back : List Char} (h : source = front ++ text ++ back) :
    (Span.behind front text).Covers source front text back :=
  ⟨h, rfl, rfl, rfl, rfl⟩

/-- A located piece of a text stands between the pieces before it and those behind it. -/
theorem exists_front_of_mem_located (h : (here, p) ∈ located {} (pieces source)) :
    ∃ qs rs, pieces source = qs ++ p :: rs ∧ here = Location.after {} (qs.flatMap Piece.text) ∧
      source = qs.flatMap Piece.text ++ p.text ++ rs.flatMap Piece.text := by
  obtain ⟨qs, rs, hps, hhere⟩ := exists_of_mem_located h
  refine ⟨qs, rs, hps, hhere, ?_⟩
  have ht := flatMap_text_pieces source
  rw [hps, List.flatMap_append, List.flatMap_cons] at ht
  rw [List.append_assoc, ht]

/-- The span of a token covers its text, and its line is the one behind the text. -/
theorem covers_of_mem_tokensFrom {t : Token} (h : t ∈ tokensFrom {} (pieces source)) :
    ∃ front back, t.span.Covers source front t.lexeme.toList back ∧
      t.line = lineBehind (front ++ t.lexeme.toList) := by
  obtain ⟨here, kind, text, hp, rfl⟩ := mem_tokensFrom_iff.1 h
  obtain ⟨qs, rs, -, rfl, hs⟩ := exists_front_of_mem_located hp
  refine ⟨qs.flatMap Piece.text, rs.flatMap Piece.text, ?_⟩
  rw [Token.startAt, String.toList_ofList, between_after]
  refine ⟨covers_behind hs, ?_⟩
  rw [← Location.after_append, Location.after_start]

/-- The text of a token is a part of the source. -/
theorem Token.mem_of_mem_lexeme {t : Token} {ch : Char} (h : t ∈ (Scan.ofText source).tokens)
    (hch : ch ∈ t.lexeme.toList) : ch ∈ source := by
  rw [Scan.ofText_eq_ofPieces] at h
  rcases List.mem_append.1 h with h | h
  · obtain ⟨front, back, hc, -⟩ := covers_of_mem_tokensFrom h
    rw [hc.source_eq]
    exact List.mem_append_left _ (List.mem_append_right _ hch)
  · rw [List.mem_singleton.1 h] at hch
    cases hch

/-- The span of a character that starts nothing covers it. -/
theorem covers_of_unexpectedCharacter_mem {c : Char} {s : Span}
    (h : .unexpectedCharacter c s ∈ errorsFrom {} (pieces source)) :
    ∃ front back, s.Covers source front [c] back := by
  obtain ⟨here, hp, rfl⟩ := unexpectedCharacter_mem_errorsFrom_iff.1 h
  obtain ⟨qs, rs, -, rfl, hs⟩ := exists_front_of_mem_located hp
  have hc := covers_behind hs
  rw [Piece.text, ← between_after] at hc
  exact ⟨qs.flatMap Piece.text, rs.flatMap Piece.text, hc⟩

/-- A string that is not closed is opened by the quote that its piece starts with. It is missed at
the end of the text. -/
theorem covers_of_unterminatedString_mem {opened s : Span}
    (h : .unterminatedString opened s ∈ errorsFrom {} (pieces source)) :
    ∃ ps body, pieces source = ps ++ [.unclosed ('"' :: body)] ∧ '"' ∉ body ∧
      opened.Covers source (ps.flatMap Piece.text) ['"'] body ∧
      s = Span.between (Location.after {} source) (Location.after {} source) := by
  obtain ⟨here, text, hp, rfl, rfl⟩ := unterminatedString_mem_errorsFrom_iff.1 h
  obtain ⟨qs, rs, hps, rfl, hs⟩ := exists_front_of_mem_located hp
  obtain ⟨rfl, body, hb, rfl⟩ := eq_nil_of_pieces_eq_unclosed hps
  rw [List.flatMap_nil, List.append_nil, Piece.text] at hs
  have hquote : source = qs.flatMap Piece.text ++ ['"'] ++ body := by
    rw [hs, List.append_assoc, List.singleton_append]
  have hc := covers_behind hquote
  rw [← between_after] at hc
  refine ⟨qs, body, hps, hb, hc, ?_⟩
  · rw [← Location.after_append, ← hs]

/-- All places that a scan reports are the true ones. -/
theorem scan_places (source : List Char) :
    (∀ t ∈ (Scan.ofText source).tokens, ∃ front back,
      t.span.Covers source front t.lexeme.toList back ∧
        t.span.slice? (String.ofList source) = some t.lexeme ∧
        t.line = lineBehind (front ++ t.lexeme.toList)) ∧
    (∀ c span, .unexpectedCharacter c span ∈ (Scan.ofText source).errors → ∃ front back,
      span.Covers source front [c] back ∧
        span.slice? (String.ofList source) = some (String.ofList [c])) ∧
    ∃ ts e, (Scan.ofText source).tokens = ts ++ [e] ∧ e.kind = .eof ∧
      e.span = ⟨Utf8.size source, Utf8.size source, lineBehind source, columnBehind source⟩ ∧
      e.line = lineBehind source ∧
      (∀ opened span, .unterminatedString opened span ∈ (Scan.ofText source).errors →
        ∃ ps body, pieces source = ps ++ [.unclosed ('"' :: body)] ∧ '"' ∉ body ∧
          opened.Covers source (ps.flatMap Piece.text) ['"'] body ∧
          opened.stop = opened.start + 1 ∧ span = e.span) ∧
      (ts ++ [e]).Pairwise fun a b => a.span.stop ≤ b.span.start ∧ a.line ≤ b.line := by
  have hend := Location.after_start source
  rw [Scan.ofText_eq_ofPieces, Scan.ofPieces, flatMap_text_pieces]
  refine ⟨fun t ht => ?_, fun c s hs => ?_, _, _, rfl, rfl, ?_, ?_, fun opened s hs => ?_, ?_⟩
  · rcases List.mem_append.1 ht with ht | ht
    · obtain ⟨front, back, hc, hl⟩ := covers_of_mem_tokensFrom ht
      have hslice := hc.slice?
      rw [String.ofList_toList] at hslice
      exact ⟨front, back, hc, hslice, hl⟩
    · obtain rfl := List.mem_singleton.1 ht
      have hs : source = source ++ [] ++ [] := by simp
      have hc := covers_behind hs
      rw [← between_after] at hc
      refine ⟨source, [], hc, hc.slice?, ?_⟩
      rw [Token.endAt, hend]
      simp [Token.eof]
  · obtain ⟨front, back, hc⟩ := covers_of_unexpectedCharacter_mem hs
    exact ⟨front, back, hc, hc.slice?⟩
  · rw [hend]
    rfl
  · rw [hend]
    rfl
  · obtain ⟨ps, body, hps, hb, hc, rfl⟩ := covers_of_unterminatedString_mem hs
    refine ⟨ps, body, hps, hb, hc, ?_, rfl⟩
    rw [hc.stop_eq, hc.start_eq, Utf8.size_append]
    rfl
  · refine List.pairwise_append.2 ⟨pairwise_tokensFrom {} _, List.pairwise_singleton _ _, ?_⟩
    intro a ha b hb
    obtain rfl := List.mem_singleton.1 hb
    have hstop := stop_le_of_mem_tokensFrom ha
    rwa [flatMap_text_pieces] at hstop

end LoxTokens
