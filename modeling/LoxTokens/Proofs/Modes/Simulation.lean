import LoxTokens.Proofs.Modes.Reader

/-!
# Errors by modes

The errors of a scan are those that a reader of single characters foretells. Between two pieces
that reader is in code, or in a comment that ends there, and over one piece it foretells the error
of that piece and no other.
-/

namespace LoxTokens

/-- The characters that change nothing in code: no other character of the alphabet does more than
quotes and slashes do. -/
def Plain (c : Char) : Prop := InAlphabet c ∧ c ≠ '"' ∧ c ≠ '/'

theorem predicted_code {text : List Char} (h : ∀ c ∈ text, Plain c) (front rest : List Char) :
    predicted .code front (text ++ rest) = predicted .code (front ++ text) rest := by
  refine predicted_append (fun f c hc cs => ?_) front rest
  obtain ⟨ha, hq, hs⟩ := h c hc
  refine ⟨?_, if_neg fun he => he.2 ha⟩
  rw [Mode.step, if_neg hq, if_neg fun he => hs he.1]

theorem plain_of_isSpace {c : Char} (h : Text.isSpace c = true) : Plain c := by
  rcases Text.isSpace_iff.1 h with rfl | rfl | rfl | rfl <;>
    exact ⟨by decide, by decide, by decide⟩

theorem plain_of_isDigit {c : Char} (h : Text.isDigit c = true) : Plain c := by
  have ha : InAlphabet c := Or.inr (Or.inr (Or.inl (Text.isDigit_iff.1 h)))
  exact ⟨ha, Text.ne_of_test h rfl, Text.ne_of_test h rfl⟩

theorem plain_of_isLetter {c : Char} (h : Text.isLetter c = true) : Plain c := by
  have ha : InAlphabet c := by
    rcases Text.isLetter_iff.1 h with hu | hl | rfl
    · exact Or.inl hu
    · exact Or.inr (Or.inl hl)
    · decide
  exact ⟨ha, Text.ne_of_test h rfl, Text.ne_of_test h rfl⟩

theorem plain_of_isWordChar {c : Char} (h : Text.isWordChar c = true) : Plain c := by
  rcases Text.isWordChar_iff.1 h with hl | hd
  · exact plain_of_isLetter hl
  · exact plain_of_isDigit hd

theorem plain_of_mem_spelling {s : Symbol} (hs : s ≠ .slash) : ∀ c ∈ s.spelling, Plain c := by
  intro c hc
  cases s
  case slash => exact absurd rfl hs
  all_goals
    simp only [Symbol.spelling, List.mem_cons, List.not_mem_nil, or_false] at hc
    rcases hc with rfl | rfl <;> exact ⟨by decide, by decide, by decide⟩

/-- A character of the alphabet is of a class, a quote, or a symbol. -/
theorem class_of_inAlphabet {c : Char} (h : InAlphabet c) :
    Text.isSpace c = true ∨ c = '"' ∨ Text.isDigit c = true ∨ Text.isLetter c = true ∨
      ∃ s : Symbol, s.spelling = [c] := by
  rcases h with hu | hl | hd | hm
  · exact Or.inr (Or.inr (Or.inr (Or.inl (Text.isLetter_iff.2 (Or.inl hu)))))
  · exact Or.inr (Or.inr (Or.inr (Or.inl (Text.isLetter_iff.2 (Or.inr (Or.inl hl))))))
  · exact Or.inr (Or.inr (Or.inl (Text.isDigit_iff.2 hd)))
  · have hall : ['_', ' ', '\r', '\t', '\n', '"', '(', ')', '\x7b', '\x7d', ',', '.', '-', '+', ';',
        '*', '!', '=', '<', '>', '/'].all (fun d => Text.isSpace d || d == '"' || Text.isDigit d ||
          Text.isLetter d || (Symbol.ofSpelling? [d]).isSome) = true := by decide
    have hc := List.all_eq_true.1 hall c hm
    simpa only [Bool.or_eq_true, beq_iff_eq, Option.isSome_iff_exists,
      Symbol.ofSpelling?_eq_some_iff, or_assoc] using hc

theorem plain_of_mem_numeral {cs : List Char} : ∀ d ∈ Piece.numeral cs, Plain d := by
  have hd (t : List Char) : ∀ d ∈ t.takeWhile Text.isDigit, Plain d := fun d hm =>
    plain_of_isDigit (List.all_eq_true.1 List.all_takeWhile d hm)
  intro d hm
  rcases Piece.numeral_cases cs with ⟨hn, -⟩ | ⟨part, -, -, hn⟩
  · rw [hn] at hm
    exact hd cs d hm
  · rw [hn, List.mem_append, List.mem_cons] at hm
    rcases hm with hm | rfl | hm
    · exact hd cs d hm
    · exact ⟨by decide, by decide, by decide⟩
    · exact hd part d hm

section Pieces

variable (front : List Char)

/-- A front of plain characters is read over. -/
theorem predicted_plain {part text : List Char} (hp : part <+: text) (h : ∀ c ∈ part, Plain c) :
    predicted .code front text = predicted .code (front ++ part) (text.drop part.length) := by
  obtain ⟨rest, rfl⟩ := hp
  rw [List.drop_left]
  exact predicted_code h front rest

/-- A slash alone is read over. -/
theorem predicted_slash {cs : List Char} (h : cs.head? ≠ some '/') :
    predicted .code front ('/' :: cs) = predicted .code (front ++ ['/']) cs := by
  have hs : Mode.code.step front '/' cs = .code := if_neg fun he => h he.2
  rw [predicted_cons, hs]
  rfl

/-- A comment is read over up to the end of its line. -/
theorem predicted_line (cs : List Char) :
    predicted .code front ('/' :: '/' :: cs) =
      predicted .code (front ++ '/' :: '/' :: cs.takeWhile (· != '\n'))
        (cs.dropWhile (· != '\n')) := by
  have hbody := Piece.not_mem_takeWhile_bne '\n' cs
  have hrest := Piece.dropWhile_bne '\n' cs
  have hstep : predicted .code front ('/' :: '/' :: cs) =
      predicted .comment (front ++ ['/'] ++ ['/']) cs := by
    rw [predicted_cons, predicted_cons]
    rfl
  have hcs : predicted .comment (front ++ ['/'] ++ ['/']) cs =
      predicted .comment (front ++ ['/'] ++ ['/'])
        (cs.takeWhile (· != '\n') ++ cs.dropWhile (· != '\n')) := by
    rw [List.takeWhile_append_dropWhile]
  rw [hstep, hcs, predicted_comment hbody, predicted_comment_eq hrest]
  simp

/-- A string is read over up to the quote that closes it. -/
theorem predicted_closed {body : List Char} (h : '"' ∉ body) (tail : List Char) :
    predicted .code front ('"' :: body ++ '"' :: tail) =
      predicted .code (front ++ ('"' :: body ++ ['"'])) tail := by
  have hopen : predicted .code front ('"' :: body ++ '"' :: tail) =
      predicted (.string front) (front ++ ['"']) (body ++ '"' :: tail) := predicted_cons ..
  have hclose : predicted (.string front) (front ++ ['"'] ++ body) ('"' :: tail) =
      predicted .code (front ++ ['"'] ++ body ++ ['"']) tail := predicted_cons ..
  rw [hopen, predicted_string h, hclose]
  simp

/-- A string that no quote closes is the last thing that is read. -/
theorem predicted_unclosed {body : List Char} (h : '"' ∉ body) :
    predicted .code front ('"' :: body) =
      [.unterminatedString (Span.behind front ['"'])
        (Span.behind (front ++ '"' :: body) [])] := by
  have hopen : predicted .code front ('"' :: body) =
      predicted (.string front) (front ++ ['"']) (body ++ []) := by
    rw [List.append_nil]
    exact predicted_cons ..
  rw [hopen, predicted_string h, predicted_nil, Mode.error?]
  simp

/-- A character that is not in the alphabet is foretold. -/
theorem predicted_stray {c : Char} (h : ¬ InAlphabet c) (cs : List Char) :
    predicted .code front (c :: cs) =
      .unexpectedCharacter c (Span.behind front [c]) :: predicted .code (front ++ [c]) cs := by
  have hq : c ≠ '"' := by
    rintro rfl
    exact h (by decide)
  have hslash : c ≠ '/' := by
    rintro rfl
    exact h (by decide)
  have hs : Mode.code.step front c cs = .code := by
    rw [Mode.step, if_neg hq, if_neg fun he => hslash he.1]
  have he : Reading.error? ⟨.code, front, c⟩ =
      some (.unexpectedCharacter c (Span.behind front [c])) := if_pos ⟨rfl, h⟩
  rw [predicted_cons, hs, he]
  rfl

/-- From one piece to the next the error of the first one is foretold. -/
theorem predicted_first (c : Char) (cs : List Char) :
    predicted .code front (c :: cs) =
      ((Piece.first c cs).error? (Location.after {} front)).toList ++
        predicted .code (front ++ (Piece.first c cs).text)
          ((c :: cs).drop (Piece.first c cs).text.length) := by
  have hp := Piece.text_first_isPrefix c cs
  have ho := Piece.opening_first c cs
  generalize Piece.first c cs = p at hp ho ⊢
  cases ho with
  | space hc =>
    refine predicted_plain front hp fun d hd => ?_
    rw [List.mem_singleton.1 hd]
    exact plain_of_isSpace hc
  | @closed body tail hc hcs hb =>
    have ht : c :: cs = '"' :: body ++ ['"'] ++ tail := by simp [hc, hcs]
    rw [Piece.text, ht, List.drop_left, List.append_assoc]
    exact predicted_closed front hb tail
  | unclosed hc hcs =>
    rw [hc, Piece.text, List.drop_length, predicted_nil, predicted_unclosed front hcs,
      ← between_after, ← between_after, Location.after_append]
    rfl
  | number => exact predicted_plain front hp plain_of_mem_numeral
  | word hc =>
    refine predicted_plain front hp fun d hd => ?_
    rcases List.mem_cons.1 hd with rfl | hd
    · exact plain_of_isLetter hc
    · exact plain_of_isWordChar (List.all_eq_true.1 List.all_takeWhile d hd)
  | @comment tail hc hcs =>
    rw [hc, hcs, Piece.text, predicted_line, List.length_cons, List.length_cons,
      List.drop_succ_cons, List.drop_succ_cons, Piece.drop_length_takeWhile]
    rfl
  | @symbol s hs hc =>
    by_cases hslash : s = .slash
    · subst hslash
      obtain ⟨rfl, -⟩ := List.cons_prefix_cons.1 hp
      exact predicted_slash front fun hh => hc ⟨rfl, hh⟩
    · exact predicted_plain front hp (plain_of_mem_spelling hslash)
  | stray hsp hq hd hl hs =>
    have hno : ¬ InAlphabet c := by
      intro ha
      rcases class_of_inAlphabet ha with h | h | h | h | ⟨s, h⟩
      · rw [hsp] at h
        cases h
      · exact hq h
      · rw [hd] at h
        cases h
      · rw [hl] at h
        cases h
      · exact hs s h
    rw [predicted_stray front hno, ← between_after]
    rfl

end Pieces

/-- The errors of the pieces of a text are the ones that are foretold. -/
theorem errorsFrom_eq_predicted (front text : List Char) :
    errorsFrom (Location.after {} front) (pieces text) = predicted .code front text := by
  induction hps : pieces text generalizing front text with
  | nil =>
    rw [eq_nil_of_pieces_eq_nil hps, predicted_nil]
    rfl
  | cons p ps ih =>
    obtain ⟨c, cs, rfl, rfl, hrest⟩ := exists_eq_cons_of_pieces_eq_cons hps
    rw [errorsFrom_cons, ← Location.after_append, ih _ _ hrest.symm, ← predicted_first]

/-- A text that ends in a string has a last piece that is not closed, and its quote is the one that
entered the string. -/
theorem exists_unclosed_of_string {source front : List Char}
    (h : Mode.code.behind [] source = .string front) :
    ∃ ps text, pieces source = ps ++ [.unclosed text] ∧
      (Location.after {} (ps.flatMap Piece.text)).offset = Utf8.size front := by
  have hmem : .unterminatedString (Span.behind front ['"']) (Span.behind source []) ∈
      errorsFrom {} (pieces source) := by
    have hp : errorsFrom {} (pieces source) = _ := errorsFrom_eq_predicted [] source
    rw [hp, predicted_eq_of_string h]
    exact List.mem_append_right _ (List.mem_singleton_self _)
  obtain ⟨ps, body, hps, -, hc, -⟩ := covers_of_unterminatedString_mem hmem
  refine ⟨ps, _, hps, ?_⟩
  rw [Location.after_start]
  exact hc.start_eq.symm

/-- The errors of a scan are those that a reader of single characters foretells: the characters
that are of no use in code, and the string that is never left, if there is one. No other place is
in error, and nothing but the string itself reaches behind its quote. -/
theorem errors_eq_predicted (source : List Char) :
    (Scan.ofText source).errors =
      (readings .code [] source).filterMap Reading.error? ++
        ((Mode.code.behind [] source).error? source).toList ∧
    (∀ r ∈ readings .code [] source, r.mode ≠ .code →
      ∀ e ∈ (Scan.ofText source).errors, e.start ≠ Utf8.size r.front) ∧
    ((∃ opened s, .unterminatedString opened s ∈ (Scan.ofText source).errors) ↔
      ∃ front, Mode.code.behind [] source = .string front) ∧
    ∀ front, Mode.code.behind [] source = .string front →
      ⟨.code, front, '"'⟩ ∈ readings .code [] source ∧
      (∃ others s, (Scan.ofText source).errors =
          others ++ [.unterminatedString (Span.behind front ['"']) s] ∧
        ∀ e ∈ others, (∃ c s, e = .unexpectedCharacter c s) ∧ e.span.stop ≤ Utf8.size front) ∧
      ∀ t ∈ (Scan.ofText source).tokens, t.kind ≠ .eof → t.span.stop ≤ Utf8.size front := by
  have hpieces : errorsFrom {} (pieces source) = predicted .code [] source :=
    errorsFrom_eq_predicted [] source
  have hscan := Scan.ofText_eq_ofPieces source
  have herr : (Scan.ofText source).errors = predicted .code [] source := by
    rw [hscan]
    exact hpieces
  rw [herr]
  refine ⟨rfl, fun r hr hm e he hs => ?_, ⟨?_, ?_⟩, fun front hb => ⟨?_, ?_, ?_⟩⟩
  · obtain ⟨other, ho, hc, hstart⟩ := exists_reading_of_mem_predicted he
    obtain rfl := eq_of_mem_readings ho hr (hstart.symm.trans hs)
    exact hm hc
  · rintro ⟨opened, s, he⟩
    rcases List.mem_append.1 he with he | he
    · obtain ⟨r, -, hr⟩ := List.mem_filterMap.1 he
      cases (Reading.error?_eq_some hr).2
    · obtain ⟨front, hb, -⟩ := Mode.error?_eq_some (Option.mem_toList.1 he)
      exact ⟨front, hb⟩
  · rintro ⟨front, hb⟩
    rw [predicted_eq_of_string hb]
    exact ⟨_, _, List.mem_append_right _ (List.mem_singleton_self _)⟩
  · rcases mem_readings_of_behind_eq_string hb with hc | hr
    · cases hc
    · exact hr
  · obtain ⟨ps, text, hps, hsize⟩ := exists_unclosed_of_string hb
    have hothers : (readings .code [] source).filterMap Reading.error? = errorsFrom {} ps := by
      rw [hps, errorsFrom_append, predicted_eq_of_string hb] at hpieces
      exact (List.append_inj_left' hpieces rfl).symm
    refine ⟨_, _, predicted_eq_of_string hb, fun e he => ⟨?_, ?_⟩⟩
    · obtain ⟨r, -, hr⟩ := List.mem_filterMap.1 he
      exact ⟨_, _, (Reading.error?_eq_some hr).2⟩
    · rw [hothers] at he
      have hle := stop_le_of_mem_errorsFrom he
      rwa [hsize] at hle
  · intro t ht hk
    obtain ⟨ps, text, hps, hsize⟩ := exists_unclosed_of_string hb
    rw [hscan, Scan.ofPieces, hps, tokensFrom_append] at ht
    rcases List.mem_append.1 ht with ht | ht
    · have hle := stop_le_of_mem_tokensFrom (List.mem_append.1 ht |>.resolve_right List.not_mem_nil)
      rw [hsize] at hle
      exact hle.1
    · rw [List.mem_singleton.1 ht] at hk
      exact absurd rfl hk

end LoxTokens
