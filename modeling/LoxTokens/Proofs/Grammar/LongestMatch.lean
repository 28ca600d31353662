import LoxTokens.Proofs.Grammar.Rule

/-!
# Longest match

At the front of a text several rules may match, and one rule may match fronts of several lengths.
The longest front decides, whichever rule matches it. Which piece it makes is said here without a
reader: the first piece of a text is that one, and where no front matches it is an error.
-/

namespace LoxTokens

namespace Rule

/-- The pieces that a rule makes. A word is a keyword if it is spelled like one, and only then. -/
inductive Makes : Rule → Piece → Prop where
  | symbol (s : Symbol) : Makes (symbol s) (.token (.symbol s) s.spelling)
  | number {text : List Char} (h : text ∈ number.language) : Makes number (.token .number text)
  | string {text : List Char} (h : text ∈ string.language) : Makes string (.token .string text)
  | keyword (k : Keyword) : Makes word (.token (.keyword k) k.spelling)
  | identifier {text : List Char} (h : text ∈ word.language)
      (hk : ∀ k : Keyword, k.spelling ≠ text) : Makes word (.token .identifier text)
  | comment {text : List Char} (h : text ∈ comment.language) : Makes comment (.gap text)
  | blank {text : List Char} (h : text ∈ blank.language) : Makes blank (.gap text)
  | newline : Makes newline (.gap ['\n'])

/-- A rule makes pieces of matching texts only. -/
theorem Makes.mem {r : Rule} {p : Piece} (h : Makes r p) : p.text ∈ r.language := by
  cases h with
  | symbol s => exact rfl
  | number h => exact h
  | string h => exact h
  | keyword k =>
    refine mem_word_iff.2 ?_
    cases k <;> exact ⟨_, _, rfl, rfl, List.all_eq_true.1 rfl⟩
  | identifier h => exact h
  | comment h => exact h
  | blank h => exact h
  | newline => exact rfl

/-- A rule makes one piece of a text. -/
theorem Makes.eq_of_text_eq {r s : Rule} {p q : Piece} (hp : Makes r p) (hq : Makes s q)
    (ht : p.text = q.text) : p = q := by
  obtain rfl : r = s := eq_of_mem hp.mem (ht ▸ hq.mem)
  cases hp <;> cases hq
  case keyword.keyword k l =>
    obtain rfl := Keyword.spelling_injective ht
    rfl
  case keyword.identifier k text _ hk => exact absurd ht (hk k)
  case identifier.keyword text _ hk k => exact absurd ht.symm (hk k)
  all_goals first | rfl | exact congrArg _ ht

/-- The kind of a word is the one that the grammar gives it. -/
theorem makes_ofWord {text : List Char} (h : text ∈ word.language) :
    Makes word (.token (Kind.ofWord text) text) := by
  unfold Kind.ofWord
  cases hk : Keyword.ofSpelling? text with
  | some k =>
    rw [← Keyword.spelling_of_ofSpelling? hk]
    exact .keyword k
  | none =>
    refine .identifier h fun k hs => ?_
    rw [← hs, Keyword.ofSpelling?_spelling] at hk
    cases hk

end Rule

/-- No front of a text matches a rule. -/
def NoMatch (text : List Char) : Prop :=
  ∀ (r : Rule) (front : List Char), front <+: text → front ∉ r.language

/-- A rule makes the piece of a front of the text, and no longer front matches any rule. -/
structure LongestMatch (text : List Char) (p : Piece) : Prop where
  /-- The piece is one of a rule. -/
  made : ∃ r, Rule.Makes r p
  /-- It stands at the front of the text. -/
  isPrefix : p.text <+: text
  /-- Nothing longer matches. -/
  longest : ∀ (r : Rule) (front : List Char), front <+: text → front ∈ r.language →
    front.length ≤ p.text.length

namespace Piece

variable {c : Char} {cs front : List Char}

/-- A front of characters that pass a test is no longer than the longest one. -/
theorem length_le_length_takeWhile {p : Char → Bool} (h : front <+: cs)
    (hp : ∀ d ∈ front, p d = true) : front.length ≤ (cs.takeWhile p).length := by
  obtain ⟨rest, rfl⟩ := h
  rw [List.takeWhile_append_of_pos hp, List.length_append]
  omega

theorem takeWhile_isDigit_append_point {whole : List Char}
    (h : ∀ d ∈ whole, Text.isDigit d = true) (part : List Char) :
    (whole ++ '.' :: part).takeWhile Text.isDigit = whole ∧
      (whole ++ '.' :: part).dropWhile Text.isDigit = '.' :: part := by
  rw [List.takeWhile_append_of_pos h, List.dropWhile_append_of_pos h,
    List.takeWhile_cons_of_neg (by decide), List.dropWhile_cons_of_neg (by decide), List.append_nil]
  exact ⟨rfl, rfl⟩

/-- The digits that a text starts with, and a point and digits behind them, are a number. -/
theorem numeral_mem (hc : Text.isDigit c = true) (cs : List Char) :
    numeral (c :: cs) ∈ Rule.number.language := by
  have hd (t : List Char) : ∀ d ∈ t.takeWhile Text.isDigit, Text.isDigit d = true :=
    List.all_eq_true.1 List.all_takeWhile
  have hne : (c :: cs).takeWhile Text.isDigit ≠ [] := by
    rw [List.takeWhile_cons_of_pos hc]
    exact List.cons_ne_nil _ _
  refine Rule.mem_number_iff.2 ⟨_, hne, hd (c :: cs), ?_⟩
  rcases numeral_cases (c :: cs) with ⟨hn, -⟩ | ⟨part, -, hp, hn⟩
  · exact Or.inl hn
  · exact Or.inr ⟨_, hp, hd part, hn⟩

/-- No number at the front of a text is longer than its numeral. -/
theorem length_le_length_numeral (hp : front <+: cs) (h : front ∈ Rule.number.language) :
    front.length ≤ (numeral cs).length := by
  obtain ⟨whole, hne, hall, ht⟩ := Rule.mem_number_iff.1 h
  rcases ht with rfl | ⟨part, hpne, hpall, rfl⟩
  · have hle := length_le_length_takeWhile hp hall
    rcases numeral_cases cs with ⟨hn, -⟩ | ⟨part, -, -, hn⟩
    · rwa [hn]
    · rw [hn, List.length_append]
      omega
  · obtain ⟨rest, rfl⟩ := hp
    rw [List.append_assoc, List.cons_append]
    obtain ⟨htake, hdrop⟩ := takeWhile_isDigit_append_point hall (part ++ rest)
    have hpart : (part ++ rest).takeWhile Text.isDigit = part ++ rest.takeWhile Text.isDigit :=
      List.takeWhile_append_of_pos hpall
    rcases numeral_cases (whole ++ '.' :: (part ++ rest)) with ⟨-, hno⟩ | ⟨other, ho, -, hn⟩
    · have he := hno _ hdrop
      rw [hpart] at he
      exact absurd (List.append_eq_nil_iff.1 he).1 hpne
    · rw [hdrop, List.cons.injEq] at ho
      rw [hn, ← ho.2, htake, hpart]
      simp only [List.length_append, List.length_cons]
      omega

/-- A letter and the letters and digits behind it are a word. -/
theorem word_mem (hc : Text.isLetter c = true) (cs : List Char) :
    c :: cs.takeWhile Text.isWordChar ∈ Rule.word.language :=
  Rule.mem_word_iff.2 ⟨_, _, rfl, hc, List.all_eq_true.1 List.all_takeWhile⟩

/-- Two slashes and the rest of the line are a comment. -/
theorem comment_mem (cs : List Char) :
    '/' :: '/' :: cs.takeWhile (· != '\n') ∈ Rule.comment.language :=
  Rule.mem_comment_iff.2 ⟨_, not_mem_takeWhile_bne '\n' cs, rfl⟩

/-- If a front of a text matches a rule, then a rule makes the first piece, and that is no shorter
than the front. -/
theorem first_of_mem {r : Rule} (hp : front <+: c :: cs) (h : front ∈ r.language) :
    (∃ s, Rule.Makes s (first c cs)) ∧ front.length ≤ (first c cs).text.length := by
  cases r with
  | number =>
    have hc : Text.isDigit c = true := by
      obtain ⟨whole, hne, hall, ht⟩ := Rule.mem_number_iff.1 h
      obtain ⟨d, tail, rfl⟩ := List.exists_cons_of_ne_nil hne
      have hd := hall d List.mem_cons_self
      rcases ht with rfl | ⟨part, -, -, rfl⟩ <;> rwa [← (List.cons_prefix_cons.1 hp).1]
    rw [first_of_isDigit hc]
    exact ⟨⟨_, .number (numeral_mem hc cs)⟩, length_le_length_numeral hp h⟩
  | word =>
    obtain ⟨d, tail, rfl, hd, htail⟩ := Rule.mem_word_iff.1 h
    obtain ⟨rfl, ht⟩ := List.cons_prefix_cons.1 hp
    rw [first_of_isLetter hd]
    refine ⟨⟨_, Rule.makes_ofWord (word_mem hd cs)⟩, ?_⟩
    exact Nat.succ_le_succ (length_le_length_takeWhile ht htail)
  | string =>
    obtain ⟨body, hb, rfl⟩ := Rule.mem_string_iff.1 h
    obtain ⟨tail, ht⟩ := hp
    rw [List.append_assoc, List.cons_append, List.singleton_append, List.cons.injEq] at ht
    obtain ⟨rfl, rfl⟩ := ht
    rw [first_quote, quoted_append hb]
    exact ⟨⟨_, .string h⟩, Nat.le_refl _⟩
  | comment =>
    obtain ⟨body, hb, rfl⟩ := Rule.mem_comment_iff.1 h
    obtain ⟨rfl, ht⟩ := List.cons_prefix_cons.1 hp
    obtain ⟨tail, rfl⟩ := ht
    rw [List.cons_append, first_comment]
    refine ⟨⟨_, .comment (comment_mem (body ++ tail))⟩, ?_⟩
    have hle := length_le_length_takeWhile (p := (· != '\n')) (List.prefix_append body tail)
      fun d hd => bne_iff_ne.2 fun he => hb (he ▸ hd)
    exact Nat.add_le_add_right hle 2
  | blank =>
    obtain ⟨d, hd, rfl⟩ := h
    obtain ⟨rfl, -⟩ := List.cons_prefix_cons.1 hp
    rw [first_of_isSpace (Text.isSpace_iff.2 (Or.inr hd))]
    exact ⟨⟨_, .blank ⟨d, hd, rfl⟩⟩, Nat.le_refl _⟩
  | newline =>
    obtain rfl : front = ['\n'] := h
    obtain ⟨rfl, -⟩ := List.cons_prefix_cons.1 hp
    exact ⟨⟨_, .newline⟩, Nat.le_refl _⟩
  | symbol s =>
    obtain rfl : front = s.spelling := h
    obtain ⟨t, ht, hle⟩ := exists_symbol?_of_prefix hp
    by_cases hc : c = '/' ∧ cs.head? = some '/'
    · obtain ⟨rfl, hh⟩ := hc
      obtain ⟨tail, rfl⟩ := List.head?_eq_some_iff.1 hh
      have hl : 2 ≤ (first '/' ('/' :: tail)).text.length := Nat.le_add_left 2 _
      exact ⟨⟨_, .comment (comment_mem tail)⟩, Nat.le_trans s.length_spelling_le hl⟩
    · rw [first_of_symbol? ht hc]
      exact ⟨⟨_, .symbol t⟩, hle⟩

/-- Where nothing matches, a quote takes the whole text and any other character itself. -/
theorem first_of_noMatch (h : NoMatch (c :: cs)) :
    (c = '"' ∧ first c cs = unclosed ('"' :: cs)) ∨ (c ≠ '"' ∧ first c cs = stray c) := by
  have hp := text_first_isPrefix c cs
  have ho := opening_first c cs
  generalize first c cs = p at hp ho ⊢
  cases ho with
  | space hc =>
    rcases Text.isSpace_iff.1 hc with rfl | hb
    · exact absurd rfl (h .newline _ hp)
    · exact absurd ⟨c, hb, rfl⟩ (h .blank _ hp)
  | closed hc hcs hb => exact absurd (Rule.mem_string_iff.2 ⟨_, hb, rfl⟩) (h .string _ hp)
  | unclosed hc => exact Or.inl ⟨hc, rfl⟩
  | number hc => exact absurd (numeral_mem hc cs) (h .number _ hp)
  | word hc => exact absurd (word_mem hc cs) (h .word _ hp)
  | @comment tail => exact absurd (comment_mem tail) (h .comment _ hp)
  | @symbol s => exact absurd rfl (h (.symbol s) _ hp)
  | stray _ hq => exact Or.inr ⟨hq, rfl⟩

/-- Where something matches, the first piece is the longest match. -/
theorem longestMatch_first {r : Rule} (hp : front <+: c :: cs) (h : front ∈ r.language) :
    LongestMatch (c :: cs) (first c cs) :=
  ⟨(first_of_mem hp h).1, text_first_isPrefix c cs, fun _ _ hp h => (first_of_mem hp h).2⟩

/-- No other piece is the longest match. -/
theorem eq_first_of_longestMatch {p : Piece} (h : LongestMatch (c :: cs) p) : p = first c cs := by
  obtain ⟨r, hr⟩ := h.made
  obtain ⟨⟨s, hs⟩, hle⟩ := first_of_mem h.isPrefix hr.mem
  have hf := text_first_isPrefix c cs
  have hlen : p.text.length = (first c cs).text.length :=
    Nat.le_antisymm hle (h.longest s _ hf hs.mem)
  refine hr.eq_of_text_eq hs ?_
  rw [List.prefix_iff_eq_take.1 h.isPrefix, List.prefix_iff_eq_take.1 hf, hlen]

end Piece

end LoxTokens
