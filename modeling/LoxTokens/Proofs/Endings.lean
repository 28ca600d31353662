import LoxTokens.Proofs.Grammar.LongestMatch

/-!
# Where pieces end

A piece of a text stays as it is whatever stands behind it, as long as that does not lengthen it:
digits lengthen a numeral, an equals sign a symbol, letters and digits a word, and anything but a
newline a comment. Whether this happens is decided by the next two characters, and by the next one
alone unless it is a point.
-/

namespace LoxTokens

section

variable {p : Char → Bool} {front rest : List Char}

/-- A front that passes a test is all that passes if and only if the next character fails. -/
theorem takeWhile_append_eq_left_iff (h : ∀ c ∈ front, p c = true) :
    (front ++ rest).takeWhile p = front ↔ ∀ d ∈ rest.head?, p d = false := by
  rw [List.takeWhile_append_of_pos h]
  cases rest with
  | nil => simp
  | cons d rest => by_cases hd : p d = true <;> simp [hd]

end

/-- Only an equals sign makes a symbol longer, and only four of them. -/
theorem Symbol.exists_spelling_append_iff {s : Symbol} {c : Char} :
    (∃ t : Symbol, t.spelling = s.spelling ++ [c]) ↔
      s ∈ [Symbol.bang, .equal, .less, .greater] ∧ c = '=' := by
  constructor
  · rintro ⟨t, ht⟩
    obtain ⟨d, tail, hs⟩ := List.exists_cons_of_ne_nil s.spelling_ne_nil
    have hlen := t.length_spelling_le
    rw [ht, hs, List.length_append, List.length_cons, List.length_singleton] at hlen
    obtain rfl : tail = [] := List.eq_nil_of_length_eq_zero (by omega)
    rw [hs] at ht
    obtain rfl := Symbol.eq_of_spelling_pair ht
    refine ⟨?_, rfl⟩
    cases t <;> cases ht
    · simp [Symbol.spelling_injective (t := .bang) hs]
    · simp [Symbol.spelling_injective (t := .equal) hs]
    · simp [Symbol.spelling_injective (t := .greater) hs]
    · simp [Symbol.spelling_injective (t := .less) hs]
  · rintro ⟨hs, rfl⟩
    simp only [List.mem_cons, List.not_mem_nil, or_false] at hs
    rcases hs with rfl | rfl | rfl | rfl
    · exact ⟨.bangEqual, rfl⟩
    · exact ⟨.equalEqual, rfl⟩
    · exact ⟨.lessEqual, rfl⟩
    · exact ⟨.greaterEqual, rfl⟩

namespace Piece

/-- The text does not lengthen the piece in front of it. -/
def EndsAt (rest : List Char) : Piece → Prop
  | token (.symbol s) _ =>
    ∀ d ∈ rest.head?,
      (s = .slash → d ≠ '/') ∧ ∀ t : Symbol, t.spelling ≠ s.spelling ++ [d]
  | token .number text =>
    (∀ d ∈ rest.head?, Text.isDigit d = false) ∧
      ('.' ∉ text → rest.head? = some '.' → ∀ d ∈ rest[1]?, Text.isDigit d = false)
  | token .string _ => True
  | token _ _ => ∀ d ∈ rest.head?, Text.isWordChar d = false
  | gap text => text.head? = some '/' → ∀ d ∈ rest.head?, d = '\n'
  | stray _ => True
  | unclosed _ => rest = []

/-- Where nothing follows nothing is lengthened. -/
theorem endsAt_nil (p : Piece) : p.EndsAt [] := by
  cases p with
  | token kind text => cases kind <;> simp [EndsAt]
  | gap | stray | unclosed => simp [EndsAt]

/-- Words end alike, keywords or not. -/
theorem endsAt_word_iff {rest word text : List Char} :
    (token (Kind.ofWord word) text).EndsAt rest ↔
      ∀ d ∈ rest.head?, Text.isWordChar d = false := by
  unfold Kind.ofWord
  cases Keyword.ofSpelling? word <;> exact Iff.rfl

/-- Digits have no point among them. -/
theorem point_not_mem {whole : List Char} (h : ∀ c ∈ whole, Text.isDigit c = true) :
    '.' ∉ whole := by
  intro hm
  have hpoint := h '.' hm
  simp [Text.isDigit] at hpoint

variable {text rest : List Char}

/-- Digits alone are the numeral of a text if neither a digit follows them nor a point with a digit
behind it. -/
theorem numeral_append_of_digits {whole : List Char}
    (hwhole : ∀ c ∈ whole, Text.isDigit c = true) :
    numeral (whole ++ rest) = whole ↔ (token .number whole).EndsAt rest := by
  have hno := point_not_mem hwhole
  have hhead : (whole ++ rest).takeWhile Text.isDigit = whole ↔
      ∀ d ∈ rest.head?, Text.isDigit d = false := takeWhile_append_eq_left_iff hwhole
  constructor
  · intro hn
    rcases numeral_cases (whole ++ rest) with ⟨htake, hpoint⟩ | ⟨part, -, -, htake⟩
    · refine ⟨hhead.1 (htake.symm.trans hn), fun _ hp d hd => ?_⟩
      obtain ⟨tail, rfl⟩ := List.head?_eq_some_iff.1 hp
      have hdrop := hpoint tail (takeWhile_isDigit_append_point hwhole tail).2
      cases tail with
      | nil => cases hd
      | cons e tail =>
        obtain rfl : e = d := by simpa using hd
        simpa [List.takeWhile_cons] using hdrop
    · rw [hn] at htake
      exact absurd (htake ▸ List.mem_append_right _ List.mem_cons_self) hno
  · rintro ⟨hstop, hpoint⟩
    rcases numeral_cases (whole ++ rest) with ⟨htake, -⟩ | ⟨part, hdrop, hpart, -⟩
    · exact htake.trans (hhead.2 hstop)
    · rw [← drop_length_takeWhile, hhead.2 hstop, List.drop_left] at hdrop
      subst hdrop
      cases part with
      | nil => exact absurd rfl hpart
      | cons d part =>
        have hd := hpoint hno rfl d rfl
        simp [hd] at hpart

/-- Digits with a point among them are the numeral of a text if no digit follows them. -/
theorem numeral_append_of_point {whole part : List Char}
    (hwhole : ∀ c ∈ whole, Text.isDigit c = true) (hne : part ≠ [])
    (hpart : ∀ c ∈ part, Text.isDigit c = true) :
    numeral (whole ++ '.' :: part ++ rest) = whole ++ '.' :: part ↔
      (token .number (whole ++ '.' :: part)).EndsAt rest := by
  obtain ⟨htake, hdrop⟩ := takeWhile_isDigit_append_point hwhole (part ++ rest)
  have hmem : '.' ∈ whole ++ '.' :: part := by simp
  have hends : (token .number (whole ++ '.' :: part)).EndsAt rest ↔
      ∀ d ∈ rest.head?, Text.isDigit d = false :=
    and_iff_left fun hno => absurd hmem hno
  rw [hends, ← takeWhile_append_eq_left_iff hpart, List.append_assoc, List.cons_append]
  rcases numeral_cases (whole ++ '.' :: (part ++ rest)) with ⟨-, hno⟩ | ⟨other, hother, -, hn⟩
  · have hnil := hno _ hdrop
    rw [List.takeWhile_append_of_pos hpart] at hnil
    exact absurd (List.append_eq_nil_iff.1 hnil).1 hne
  · rw [hdrop, List.cons.injEq] at hother
    rw [hn, htake, ← hother.2]
    simp

/-- A number is the numeral of a text if nothing in the text lengthens it. -/
theorem numeral_append_eq_left_iff (h : text ∈ Rule.number.language) :
    numeral (text ++ rest) = text ↔ (token .number text).EndsAt rest := by
  obtain ⟨whole, -, hwhole, rfl | ⟨part, hne, hpart, rfl⟩⟩ := Rule.mem_number_iff.1 h
  · exact numeral_append_of_digits hwhole
  · exact numeral_append_of_point hwhole hne hpart

/-- A symbol is read if no longer one starts there. -/
theorem symbol?_spelling_append_iff (s : Symbol) (rest : List Char) :
    symbol? (s.spelling ++ rest) = some s ↔
      ∀ d ∈ rest.head?, ∀ t : Symbol, t.spelling ≠ s.spelling ++ [d] := by
  have hlen (t : Symbol) := t.length_spelling_le
  rcases hs : s.spelling with _ | ⟨c, _ | ⟨d, tail⟩⟩
  · exact absurd hs s.spelling_ne_nil
  · have hc := Symbol.ofSpelling?_eq_some_iff.2 hs
    cases rest with
    | nil => simp [symbol?, hc]
    | cons d rest =>
      rw [List.singleton_append, symbol?, hc]
      cases hd : Symbol.ofSpelling? [c, d] with
      | none => simpa using Symbol.ofSpelling?_eq_none_iff.1 hd
      | some t =>
        have ht := Symbol.spelling_of_ofSpelling? hd
        have hne : t ≠ s := by
          rintro rfl
          simp [hs] at ht
        simpa [hne] using ⟨t, ht⟩
  · have hslen := hlen s
    simp only [hs, List.length_cons] at hslen
    obtain rfl : tail = [] := List.eq_nil_of_length_eq_zero (by omega)
    have hread : symbol? (c :: d :: rest) = some s := by
      rw [symbol?, Symbol.ofSpelling?_eq_some_iff.2 hs, Option.some_or]
    refine iff_of_true hread fun e _ t ht => ?_
    have htlen := hlen t
    simp [ht] at htlen

/-- A symbol is the first piece of a text if neither a longer symbol starts there nor a comment. -/
theorem first?_spelling_append_iff (s : Symbol) (rest : List Char) :
    first? (s.spelling ++ rest) = some (token (.symbol s) s.spelling) ↔
      (token (.symbol s) s.spelling).EndsAt rest := by
  have hread := symbol?_spelling_append_iff s rest
  by_cases hslash : s = .slash ∧ rest.head? = some '/'
  · obtain ⟨rfl, hhead⟩ := hslash
    obtain ⟨tail, rfl⟩ := List.head?_eq_some_iff.1 hhead
    simp [EndsAt, Symbol.spelling, first?, first_comment]
  · have hends : (token (.symbol s) s.spelling).EndsAt rest ↔
        symbol? (s.spelling ++ rest) = some s := by
      rw [hread]
      refine forall₂_congr fun d hd => and_iff_right ?_
      rintro rfl rfl
      exact hslash ⟨rfl, hd⟩
    obtain ⟨c, cs, hs⟩ := List.exists_cons_of_ne_nil s.spelling_ne_nil
    have hc : ¬ (c = '/' ∧ (cs ++ rest).head? = some '/') := by
      rintro ⟨rfl, hhead⟩
      apply hslash
      cases s <;> simp_all [Symbol.spelling]
    obtain ⟨t, ht, -⟩ :=
      exists_symbol?_of_prefix (hs ▸ ⟨rest, rfl⟩ : s.spelling <+: c :: (cs ++ rest))
    rw [hends, hs, List.cons_append, ht, first?, first_of_symbol? ht hc]
    constructor
    · intro he
      obtain ⟨hkind, -⟩ := token.inj (Option.some.inj he)
      rw [Kind.symbol.inj hkind]
    · intro he
      rw [Option.some.inj he, hs]

/-- The first piece of a text is the first one of its own text and any other behind it if and only
if that does not lengthen it. -/
theorem first?_text_append_iff {source : List Char} {p : Piece} (h : first? source = some p)
    (rest : List Char) : first? (p.text ++ rest) = some p ↔ p.EndsAt rest := by
  cases source with
  | nil => cases h
  | cons c cs =>
    have ho := opening_first c cs
    rw [Option.some.inj h] at ho
    cases ho with
    | space hc =>
      have hslash : c ≠ '/' := Text.ne_of_test hc rfl
      simp [EndsAt, first?, text, first_of_isSpace hc, hslash]
    | @closed body tail hc hcs hb =>
      simp [EndsAt, first?, text, first_quote, quoted_append hb]
    | unclosed hc hcs =>
      rw [text, List.cons_append, first?, first_quote, Option.some.injEq]
      by_cases hq : '"' ∈ rest
      · obtain ⟨body, tail, rfl, hb⟩ := List.eq_append_cons_of_mem hq
        rw [← List.append_assoc, quoted_append (by simp [hcs, hb])]
        simp [EndsAt]
      · rw [quoted_of_not_mem (by simp [hcs, hq])]
        simp [EndsAt]
    | number hc =>
      have hmem := numeral_mem hc cs
      rw [← numeral_append_eq_left_iff hmem]
      obtain ⟨tail, ht⟩ := exists_numeral_eq_cons hc cs
      rw [text, ht, List.cons_append, first?, first_of_isDigit hc]
      simp
    | word hc =>
      have hword : ∀ d ∈ cs.takeWhile Text.isWordChar, Text.isWordChar d = true :=
        List.all_eq_true.1 List.all_takeWhile
      rw [endsAt_word_iff, ← takeWhile_append_eq_left_iff hword, text, List.cons_append, first?,
        first_of_isLetter hc]
      constructor
      · intro he
        simpa using (token.inj (Option.some.inj he)).2
      · intro he
        rw [he]
    | @comment tail hc hcs =>
      have hline : ∀ d ∈ tail.takeWhile (· != '\n'), (d != '\n') = true :=
        List.all_eq_true.1 List.all_takeWhile
      have hends : (gap ('/' :: '/' :: tail.takeWhile (· != '\n'))).EndsAt rest ↔
          ∀ d ∈ rest.head?, (d != '\n') = false := by
        simp [EndsAt]
      rw [hends, ← takeWhile_append_eq_left_iff hline, text, List.cons_append, List.cons_append,
        first?, first_comment]
      simp
    | symbol hs hc => exact first?_spelling_append_iff _ rest
    | stray hsp hq hd hl hs =>
      have hno (s : Symbol) (tail : List Char) : s.spelling ≠ c :: tail := by
        intro ht
        obtain ⟨t, ht⟩ := Symbol.exists_spelling_singleton ht
        exact hs t ht
      simp [EndsAt, first?, text, first_eq_stray hsp hq hd hl hno]

/-- Whether a piece is lengthened is decided by the next character, and by the one behind it if the
next one is a point. -/
theorem endsAt_congr {rest other : List Char} (hhead : rest.head? = other.head?)
    (hsecond : rest.head? = some '.' → rest[1]? = other[1]?) (p : Piece) :
    p.EndsAt rest ↔ p.EndsAt other := by
  have hnil : rest = [] ↔ other = [] := by
    rw [← List.head?_eq_none_iff, hhead, List.head?_eq_none_iff]
  cases p with
  | token kind text =>
    cases kind with
    | number =>
      simp only [EndsAt, ← hhead]
      refine and_congr_right fun _ => forall_congr' fun _ => forall_congr' fun hp => ?_
      rw [hsecond hp]
    | symbol | identifier | string | keyword | eof => simp only [EndsAt, hhead]
  | gap | stray => simp only [EndsAt, hhead]
  | unclosed => exact hnil

/-- So a piece in front of anything but the end or a last point ends there whatever is added. -/
theorem endsAt_append_iff {rest : List Char} (hne : rest ≠ []) (hpoint : rest ≠ ['.'])
    (more : List Char) (p : Piece) : p.EndsAt (rest ++ more) ↔ p.EndsAt rest := by
  obtain ⟨d, tail, rfl⟩ := List.exists_cons_of_ne_nil hne
  have hhead : (d :: tail ++ more).head? = (d :: tail).head? := rfl
  refine endsAt_congr hhead (fun hd => ?_) p
  obtain rfl : d = '.' := by simpa using hd
  have htail : tail ≠ [] := by
    rintro rfl
    exact hpoint rfl
  obtain ⟨e, tail, rfl⟩ := List.exists_cons_of_ne_nil htail
  rfl

end Piece

/-- A piece in front of a text that does not lengthen it is cut off the text. -/
theorem pieces_text_append {p : Piece} {rest : List Char}
    (h : Piece.first? (p.text ++ rest) = some p) : pieces (p.text ++ rest) = p :: pieces rest := by
  cases htext : p.text ++ rest with
  | nil =>
    rw [htext] at h
    cases h
  | cons c cs =>
    rw [htext] at h
    obtain rfl := Option.some.inj h
    rw [pieces_cons, ← htext, List.drop_left]

/-- Texts are taken apart piece by piece, and no piece is lengthened by the text behind it. -/
@[elab_as_elim]
theorem pieces_induction {motive : List Char → Prop} (nil : motive [])
    (piece : ∀ p rest, Piece.first? (p.text ++ rest) = some p → p.EndsAt rest → motive rest →
      motive (p.text ++ rest)) (text : List Char) : motive text := by
  fun_induction pieces text with
  | case1 => exact nil
  | case2 c cs ih =>
    have htext := List.prefix_iff_eq_append.1 (Piece.text_first_isPrefix c cs)
    have hfirst : Piece.first? (c :: cs) = some (.first c cs) := rfl
    rw [← htext] at hfirst ⊢
    exact piece _ _ hfirst ((Piece.first?_text_append_iff hfirst _).1 hfirst) ih

end LoxTokens
