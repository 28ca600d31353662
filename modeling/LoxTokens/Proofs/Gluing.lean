import LoxTokens.Proofs.Endings
import LoxTokens.Proofs.Writing

/-!
# Tokens without separators

Tokens that are written one directly behind the other are read back unless one of them goes on in
the next one. Two neighbours decide that, except that a number without a point can also go on over
a point into another number. Two slashes start a comment, which may end at a newline inside a string
further on, but never so that the tokens come out as they were written.
-/

namespace LoxTokens

/-- Identifiers and keywords are words. -/
def Kind.IsWord (k : Kind) : Prop := k = .identifier ∨ ∃ w, k = .keyword w

/-- Tokens one directly behind the other. -/
def glued (ts : List (Kind × List Char)) : List Char := ts.flatMap Prod.snd

/-- The first of some tokens goes on in those directly behind it. -/
inductive Clash : List (Kind × List Char) → Prop where
  | word {k l : Kind} {text next : List Char} {ts : List (Kind × List Char)} (hk : k.IsWord)
      (hl : l.IsWord ∨ l = .number) : Clash ((k, text) :: (l, next) :: ts)
  | numbers {text next : List Char} {ts : List (Kind × List Char)} :
      Clash ((.number, text) :: (.number, next) :: ts)
  | equals {s t : Symbol} {text next : List Char} {ts : List (Kind × List Char)}
      (hs : s ∈ [Symbol.bang, .equal, .less, .greater]) (ht : t ∈ [Symbol.equal, .equalEqual]) :
      Clash ((.symbol s, text) :: (.symbol t, next) :: ts)
  | slashes {text next : List Char} {ts : List (Kind × List Char)} :
      Clash ((.symbol .slash, text) :: (.symbol .slash, next) :: ts)
  | point {text point next : List Char} {ts : List (Kind × List Char)} (hno : '.' ∉ text) :
      Clash ((.number, text) :: (.symbol .dot, point) :: (.number, next) :: ts)

/-- What a character says about the kind of the tokens that start with it. -/
structure Kind.StartsWith (k : Kind) (c : Char) : Prop where
  /-- Numbers start with digits. -/
  digit_iff : Text.isDigit c = true ↔ k = .number
  /-- Words start with letters. -/
  letter_iff : Text.isLetter c = true ↔ k.IsWord
  /-- Two symbols start with an equals sign. -/
  equals_iff : c = '=' ↔ k = .symbol .equal ∨ k = .symbol .equalEqual
  /-- One starts with a slash. -/
  slash_iff : c = '/' ↔ k = .symbol .slash
  /-- One starts with a point. -/
  point_iff : c = '.' ↔ k = .symbol .dot

namespace Kind

theorem IsWord.ne_number {k : Kind} (h : k.IsWord) : k ≠ .number := by
  rintro rfl
  rcases h with h | ⟨w, h⟩ <;> cases h

theorem IsWord.ne_symbol {k : Kind} (h : k.IsWord) (s : Symbol) : k ≠ .symbol s := by
  rintro rfl
  rcases h with h | ⟨w, h⟩ <;> cases h

theorem startsWith_of_isDigit {c : Char} (h : Text.isDigit c = true) : number.StartsWith c where
  digit_iff := iff_of_true h rfl
  letter_iff := by
    refine iff_of_false (fun hl => ?_) fun hw => hw.ne_number rfl
    rw [Text.isDigit_of_isLetter hl] at h
    cases h
  equals_iff := by simpa using Text.ne_of_test h rfl
  slash_iff := by simpa using Text.ne_of_test h rfl
  point_iff := by simpa using Text.ne_of_test h rfl

theorem IsWord.startsWith {k : Kind} {c : Char} (hk : k.IsWord) (h : Text.isLetter c = true) :
    k.StartsWith c where
  digit_iff := by simpa [hk.ne_number] using Text.isDigit_of_isLetter h
  letter_iff := iff_of_true h hk
  equals_iff := by simpa [hk.ne_symbol] using Text.ne_of_test h rfl
  slash_iff := by simpa [hk.ne_symbol] using Text.ne_of_test h rfl
  point_iff := by simpa [hk.ne_symbol] using Text.ne_of_test h rfl

theorem startsWith_of_spelling {s : Symbol} {c : Char} {tail : List Char}
    (h : s.spelling = c :: tail) : (symbol s).StartsWith c := by
  obtain ⟨-, -, hd, hl⟩ := Piece.classless_of_spelling h
  have hw : ¬ (symbol s).IsWord := fun hw => hw.ne_symbol s rfl
  refine ⟨by simp [hd], by simp [hl, hw], ?_, ?_, ?_⟩ <;> (cases s <;> cases h <;> simp)

theorem startsWith_quote : string.StartsWith '"' := by
  have hw : ¬ string.IsWord := by rintro (h | ⟨w, h⟩) <;> cases h
  refine ⟨?_, ?_, ?_, ?_, ?_⟩ <;> simp [hw] <;> decide

end Kind

/-- Each token starts with a character that tells as much of its kind. -/
theorem exists_startsWith_of_makes {r : Rule} {k : Kind} {text : List Char}
    (h : Rule.Makes r (.token k text)) : ∃ c tail, text = c :: tail ∧ k.StartsWith c := by
  have hmem := h.mem
  cases h with
  | symbol s =>
    obtain ⟨c, tail, hs⟩ := List.exists_cons_of_ne_nil s.spelling_ne_nil
    exact ⟨c, tail, hs, Kind.startsWith_of_spelling hs⟩
  | number =>
    obtain ⟨whole, hne, hwhole, htext⟩ := Rule.mem_number_iff.1 hmem
    obtain ⟨c, tail, rfl⟩ := List.exists_cons_of_ne_nil hne
    have hc := Kind.startsWith_of_isDigit (hwhole c List.mem_cons_self)
    rcases htext with rfl | ⟨part, -, -, rfl⟩ <;> exact ⟨c, _, rfl, hc⟩
  | string =>
    obtain ⟨body, -, rfl⟩ := Rule.mem_string_iff.1 hmem
    exact ⟨'"', _, rfl, Kind.startsWith_quote⟩
  | keyword w =>
    obtain ⟨c, tail, ht, hc, -⟩ := Rule.mem_word_iff.1 hmem
    exact ⟨c, tail, ht, Kind.IsWord.startsWith (Or.inr ⟨w, rfl⟩) hc⟩
  | identifier =>
    obtain ⟨c, tail, ht, hc, -⟩ := Rule.mem_word_iff.1 hmem
    exact ⟨c, tail, ht, Kind.IsWord.startsWith (Or.inl rfl) hc⟩

variable {t : Kind × List Char} {ts : List (Kind × List Char)}

theorem Kind.IsWord.endsAt_iff {k : Kind} (hk : k.IsWord) (text rest : List Char) :
    (Piece.token k text).EndsAt rest ↔ ∀ d ∈ rest.head?, Text.isWordChar d = false := by
  rcases hk with rfl | ⟨w, rfl⟩ <;> exact Iff.rfl

/-- A token that clashes with the next ones goes on in them. -/
theorem not_endsAt_of_clash (hts : ∀ u ∈ ts, ∃ r, Rule.Makes r (.token u.1 u.2))
    (h : Clash (t :: ts)) : ¬ (Piece.token t.1 t.2).EndsAt (glued ts) := by
  intro hends
  cases h with
  | @word k l text next us hk hl =>
    obtain ⟨r, hr⟩ := hts _ List.mem_cons_self
    obtain ⟨c, tail, rfl, hc⟩ := exists_startsWith_of_makes hr
    have hstop := (hk.endsAt_iff _ _).1 hends c rfl
    have hgo : Text.isWordChar c = true :=
      Text.isWordChar_iff.2 (hl.imp hc.letter_iff.2 hc.digit_iff.2)
    rw [hstop] at hgo
    cases hgo
  | @numbers text next us =>
    obtain ⟨r, hr⟩ := hts _ List.mem_cons_self
    obtain ⟨c, tail, rfl, hc⟩ := exists_startsWith_of_makes hr
    have hstop := hends.1 c rfl
    rw [hc.digit_iff.2 rfl] at hstop
    cases hstop
  | @equals s t text next us hs ht =>
    obtain ⟨r, hr⟩ := hts _ List.mem_cons_self
    obtain ⟨c, tail, rfl, hc⟩ := exists_startsWith_of_makes hr
    have hequals : c = '=' := hc.equals_iff.2 (by simpa using ht)
    obtain ⟨long, hlong⟩ := Symbol.exists_spelling_append_iff.2 ⟨hs, hequals⟩
    exact (hends c rfl).2 long hlong
  | @slashes text next us =>
    obtain ⟨r, hr⟩ := hts _ List.mem_cons_self
    obtain ⟨c, tail, rfl, hc⟩ := exists_startsWith_of_makes hr
    exact (hends c rfl).1 rfl (hc.slash_iff.2 rfl)
  | @point text point next us hno =>
    obtain ⟨r, hr⟩ := hts _ List.mem_cons_self
    obtain ⟨q, hq⟩ := hts (.number, next) (by simp)
    obtain ⟨c, tail, rfl, hc⟩ := exists_startsWith_of_makes hq
    cases hr
    have hstop := hends.2 hno rfl c rfl
    rw [hc.digit_iff.2 rfl] at hstop
    cases hstop

section

variable {u : Kind × List Char} {text tail : List Char} {c : Char}

/-- A word in front of a word or a number would clash. -/
theorem Kind.IsWord.endsAt_of_not_clash {k : Kind} (hk : k.IsWord) (hu : u.2 = c :: tail)
    (hc : u.1.StartsWith c) (h : ¬ Clash ((k, text) :: u :: ts)) :
    (Piece.token k text).EndsAt (glued (u :: ts)) := by
  refine (hk.endsAt_iff _ _).2 fun d hd => ?_
  obtain rfl : c = d := by simpa [glued, hu] using hd
  by_contra hgo
  rw [Bool.not_eq_false, Text.isWordChar_iff] at hgo
  exact h (.word hk (hgo.imp hc.letter_iff.1 hc.digit_iff.1))

/-- So would a slash in front of a slash, and a symbol that an equals sign makes longer. -/
theorem symbol_endsAt_of_not_clash {s : Symbol} (hu : u.2 = c :: tail) (hc : u.1.StartsWith c)
    (h : ¬ Clash ((.symbol s, text) :: u :: ts)) :
    (Piece.token (.symbol s) text).EndsAt (glued (u :: ts)) := by
  obtain ⟨l, next⟩ := u
  obtain rfl : next = c :: tail := hu
  intro d hd
  obtain rfl : c = d := by simpa [glued] using hd
  constructor
  · rintro rfl hslash
    obtain rfl : l = .symbol .slash := hc.slash_iff.1 hslash
    exact h .slashes
  · intro long hlong
    obtain ⟨hs, hequals⟩ := Symbol.exists_spelling_append_iff.1 ⟨long, hlong⟩
    obtain rfl | rfl : l = .symbol .equal ∨ l = .symbol .equalEqual := hc.equals_iff.1 hequals
    · exact h (.equals hs (by simp))
    · exact h (.equals hs (by simp))

/-- So would a number in front of a number, at once or over a point. -/
theorem number_endsAt_of_not_clash (hts : ∀ u ∈ ts, ∃ r, Rule.Makes r (.token u.1 u.2))
    (h : ¬ Clash ((.number, text) :: ts)) : (Piece.token .number text).EndsAt (glued ts) := by
  cases ts with
  | nil => exact Piece.endsAt_nil _
  | cons u us =>
    obtain ⟨⟨q, hq⟩, hus⟩ := List.forall_mem_cons.1 hts
    obtain ⟨l, next⟩ := u
    obtain ⟨c, tail, rfl, hc⟩ := exists_startsWith_of_makes hq
    constructor
    · intro d hd
      obtain rfl : c = d := by simpa [glued] using hd
      by_contra hdigit
      rw [Bool.not_eq_false, hc.digit_iff] at hdigit
      subst hdigit
      exact h .numbers
    · intro hno hpoint d hd
      obtain rfl : c = '.' := by simpa [glued] using hpoint
      obtain rfl := hc.point_iff.1 rfl
      cases hq
      cases us with
      | nil => simp [glued] at hd
      | cons v vs =>
        obtain ⟨q, hq⟩ := hus v List.mem_cons_self
        obtain ⟨l, next⟩ := v
        obtain ⟨e, tail, rfl, he⟩ := exists_startsWith_of_makes hq
        obtain rfl : e = d := by simpa [glued] using hd
        by_contra hdigit
        rw [Bool.not_eq_false, he.digit_iff] at hdigit
        subst hdigit
        exact h (.point hno)

end

/-- A token that clashes with nothing ends in front of the next one. -/
theorem endsAt_of_not_clash (ht : ∃ r, Rule.Makes r (.token t.1 t.2))
    (hts : ∀ u ∈ ts, ∃ r, Rule.Makes r (.token u.1 u.2)) (h : ¬ Clash (t :: ts)) :
    (Piece.token t.1 t.2).EndsAt (glued ts) := by
  obtain ⟨r, hr⟩ := ht
  obtain ⟨k, text⟩ := t
  cases ts with
  | nil => exact Piece.endsAt_nil _
  | cons u us =>
    obtain ⟨q, hq⟩ := hts u List.mem_cons_self
    obtain ⟨c, tail, hu, hc⟩ := exists_startsWith_of_makes hq
    cases hr with
    | symbol s => exact symbol_endsAt_of_not_clash hu hc h
    | number => exact number_endsAt_of_not_clash hts h
    | string => trivial
    | keyword w => exact Kind.IsWord.endsAt_of_not_clash (Or.inr ⟨w, rfl⟩) hu hc h
    | identifier => exact Kind.IsWord.endsAt_of_not_clash (Or.inl rfl) hu hc h

/-- Glued tokens are the pieces of their text if and only if no clash is among them. -/
theorem pieces_glued_iff (hts : ∀ u ∈ ts, ∃ r, Rule.Makes r (.token u.1 u.2)) :
    pieces (glued ts) = ts.map (fun u => .token u.1 u.2) ↔ ∀ us, us <:+ ts → ¬ Clash us := by
  induction ts with
  | nil =>
    refine iff_of_true pieces_nil fun us hus hclash => ?_
    rw [List.suffix_nil.1 hus] at hclash
    cases hclash
  | cons t ts ih =>
    obtain ⟨⟨r, hr⟩, htail⟩ := List.forall_mem_cons.1 hts
    have hends := Piece.first?_text_append_iff (first?_of_makes hr) (glued ts)
    constructor
    · intro h us hus
      obtain ⟨c, cs, htext, hfirst, hrest⟩ := exists_eq_cons_of_pieces_eq_cons h
      have hread : Piece.first? (glued (t :: ts)) = some (.token t.1 t.2) :=
        (congrArg Piece.first? htext).trans (congrArg some hfirst.symm)
      rcases List.suffix_cons_iff.1 hus with rfl | hus
      · exact fun hclash => not_endsAt_of_clash htail hclash (hends.1 hread)
      · rw [glued, List.flatMap_cons, Piece.text, List.drop_left] at hrest
        exact (ih htail).1 hrest.symm us hus
    · intro h
      have hread := hends.2 (endsAt_of_not_clash ⟨r, hr⟩ htail (h _ List.suffix_rfl))
      have hrest := (ih htail).2 fun us hus => h us (hus.trans (List.suffix_cons t ts))
      rw [List.map_cons, ← hrest]
      exact pieces_text_append hread

/-- The tokens among pieces are no longer than all of them. -/
theorem length_glued_le (ps : List Piece) :
    (glued (ps.filterMap Piece.reading?)).length ≤ (ps.flatMap Piece.text).length := by
  induction ps with
  | nil => exact Nat.le_refl 0
  | cons p ps ih =>
    rw [List.flatMap_cons, List.length_append]
    cases p with
    | token kind text => simpa [glued, Piece.reading?, Piece.text] using ih
    | gap | stray | unclosed => exact Nat.le_trans ih (Nat.le_add_left _ _)

/-- Where the tokens among pieces make up the whole text, all pieces are tokens. -/
theorem eq_map_of_flatMap_text_eq {ps : List Piece} (hne : ∀ p ∈ ps, p.text ≠ [])
    (h : ps.flatMap Piece.text = glued (ps.filterMap Piece.reading?)) :
    ps = (ps.filterMap Piece.reading?).map (fun u => .token u.1 u.2) := by
  induction ps with
  | nil => rfl
  | cons p ps ih =>
    obtain ⟨hp, hps⟩ := List.forall_mem_cons.1 hne
    have hpos := List.length_pos_iff.2 hp
    have hle := length_glued_le ps
    have hlen := congrArg List.length h
    rw [List.flatMap_cons, List.length_append] at hlen
    cases p with
    | token kind text =>
      have hrest := ih hps (List.append_cancel_left h)
      exact congrArg (_ :: ·) hrest
    | gap | stray | unclosed =>
      -- Then the text of this piece is missing in what the tokens make up.
      simp only [List.filterMap_cons, Piece.reading?] at hlen
      omega

/-- Tokens written one directly behind the other are read back, each with its kind and its text in
order and nothing else, if and only if no two neighbours clash: a word in front of a word or a
number, a number in front of a number, an exclamation mark, an equals sign or an angle bracket in
front of an equals sign, a slash in front of a slash; and no number without a point stands in front
of a point and another number. -/
theorem scan_glued_iff (hts : ∀ u ∈ ts, ∃ r, Rule.Makes r (.token u.1 u.2)) :
    ((Scan.ofText (glued ts)).tokens.map Token.reading = ts ++ [(.eof, [])] ∧
        (Scan.ofText (glued ts)).errors = []) ↔
      ∀ us, us <:+ ts → ¬ Clash us := by
  have hscan := Scan.ofText_eq_ofPieces (glued ts)
  rw [← pieces_glued_iff hts]
  constructor
  · rintro ⟨htokens, -⟩
    rw [hscan, Scan.ofPieces, List.map_append, map_reading_tokensFrom] at htokens
    have hread := List.append_inj_left' htokens rfl
    have htext : (pieces (glued ts)).flatMap Piece.text =
        glued ((pieces (glued ts)).filterMap Piece.reading?) := by
      rw [flatMap_text_pieces, hread]
    have hall := eq_map_of_flatMap_text_eq (fun p => text_ne_nil_of_mem_pieces) htext
    rwa [hread] at hall
  · intro hpieces
    have hread : ReadsAs (glued ts) ts := by
      rw [ReadsAs, hpieces, List.filterMap_map, List.filterMap_map]
      exact ⟨List.filterMap_some, List.filterMap_eq_nil_iff.2 fun u _ => rfl⟩
    obtain ⟨herrors, htokens⟩ := hread.scan
    refine ⟨?_, herrors⟩
    rw [hscan, Scan.ofPieces, List.map_append, htokens]
    rfl

/-- A number with a point goes on over no other point, and one slash starts nothing. A second one
starts a comment that ends in the string behind it. -/
theorem scan_glued_iff_slashes :
    let ts : List (Kind × List Char) :=
      [(.number, ['1', '.', '5']), (.symbol .dot, ['.']), (.number, ['2']), (.symbol .slash, ['/']),
        (.string, ['"', '\n', '"'])]
    (∀ u ∈ ts, ∃ r, Rule.Makes r (.token u.1 u.2)) ∧
      (Scan.ofText "1.5.2/\"\n\"".toList).tokens.map Token.reading = ts ++ [(.eof, [])] ∧
      (Scan.ofText "1.5.2/\"\n\"".toList).errors = [] ∧
      ¬ ((Scan.ofText "1.5.2//\"\n\"".toList).tokens.map Token.reading =
          ts.take 4 ++ ts.drop 3 ++ [(.eof, [])] ∧
        (Scan.ofText "1.5.2//\"\n\"".toList).errors = []) := by
  intro ts
  have hlong : ['1', '.', '5'] ∈ Rule.number.language :=
    Rule.mem_number_iff.2 ⟨['1'], by simp, by simp [Text.isDigit],
      Or.inr ⟨['5'], by simp, by simp [Text.isDigit], rfl⟩⟩
  have hshort : ['2'] ∈ Rule.number.language :=
    Rule.mem_number_iff.2 ⟨['2'], by simp, by simp [Text.isDigit], Or.inl rfl⟩
  have hstring : ['"', '\n', '"'] ∈ Rule.string.language :=
    Rule.mem_string_iff.2 ⟨['\n'], by decide, rfl⟩
  have hts : ∀ u ∈ ts, ∃ r, Rule.Makes r (.token u.1 u.2) := by
    simp only [ts, List.forall_mem_cons]
    exact ⟨⟨_, .number hlong⟩, ⟨_, .symbol .dot⟩, ⟨_, .number hshort⟩, ⟨_, .symbol .slash⟩,
      ⟨_, .string hstring⟩, by simp⟩
  have htwo : ∀ u ∈ ts.take 4 ++ ts.drop 3, ∃ r, Rule.Makes r (.token u.1 u.2) := by
    intro u hu
    rcases List.mem_append.1 hu with hu | hu
    · exact hts u (List.mem_of_mem_take hu)
    · exact hts u (List.mem_of_mem_drop hu)
  have hfree : ∀ us, us <:+ ts → ¬ Clash us := by
    intro us hus hclash
    simp only [ts, List.suffix_cons_iff, List.suffix_nil] at hus
    rcases hus with rfl | rfl | rfl | rfl | rfl | rfl
    · cases hclash with
      | word hk => exact hk.ne_number rfl
      | point hno => simp at hno
    · cases hclash with
      | word hk => exact hk.ne_symbol _ rfl
    · cases hclash with
      | word hk => exact hk.ne_number rfl
    · cases hclash with
      | word hk => exact hk.ne_symbol _ rfl
    · cases hclash
    · cases hclash
  obtain ⟨htokens, herrors⟩ := (scan_glued_iff hts).2 hfree
  refine ⟨hts, htokens, herrors, fun hread => ?_⟩
  exact (scan_glued_iff htwo).1 hread ((.symbol .slash, ['/']) :: ts.drop 3) ⟨ts.take 3, rfl⟩
    .slashes

end LoxTokens
