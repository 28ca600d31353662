import LoxTokens.Proofs.Boundary
import LoxTokens.Proofs.Grammar.Cut

/-!
# Written tokens

Tokens can be written down in many ways: with any blanks, newlines and comments in front of them,
between them and behind them. As long as a blank or a newline stands directly behind each token that
something follows, the text is read back as the tokens that were written, and nothing in it is in
error.
-/

namespace LoxTokens

open scoped Computability

namespace Rule

/-- Blanks, newlines, and comments with the newlines that end them. -/
def fill : Language Char :=
  (blank.language + newline.language + comment.language * newline.language)∗

/-- What separates two tokens starts with a blank or a newline. -/
def separator : Language Char := (blank.language + newline.language) * fill

/-- What stands behind the last token, if anything does, starts like a separator, and a comment may
end it. -/
def trailer : Language Char := 1 + separator * (1 + comment.language)

end Rule

/-- Tokens one behind the other. The separator of a number stands behind the token of that number,
except behind the last one. -/
def joined (sep : Nat → List Char) : List (Kind × List Char) → List Char
  | [] => []
  | [t] => t.2
  | t :: u :: ts => t.2 ++ sep 0 ++ joined (fun i => sep (i + 1)) (u :: ts)

/-- The pieces of a text are tokens of these kinds and texts in order, and gaps. -/
def ReadsAs (text : List Char) (ts : List (Kind × List Char)) : Prop :=
  (pieces text).filterMap Piece.reading? = ts ∧ (pieces text).filterMap Piece.culprit? = []

/-- Nothing in a text that comes next lengthens a token. -/
def Apart (rest : List Char) : Prop := ∀ d ∈ rest.head?, Text.isSpace d = true

/-- Only the rule of strings makes strings. -/
theorem Rule.mem_string_of_makes {r : Rule} {text : List Char}
    (h : Makes r (.token .string text)) : text ∈ string.language := by
  cases h with
  | string h => exact h

/-- A piece that a rule makes is the only piece of its text. -/
theorem pieces_of_makes {r : Rule} {p : Piece} (h : Rule.Makes r p) : pieces p.text = [p] := by
  obtain ⟨c, cs, ht⟩ := List.exists_cons_of_ne_nil (Rule.ne_nil_of_mem h.mem)
  have hp : LongestMatch (c :: cs) p := by
    refine ⟨⟨r, h⟩, by rw [ht], fun _ front hf _ => ?_⟩
    rw [ht]
    exact hf.length_le
  rw [ht, pieces_cons, ← Piece.eq_first_of_longestMatch hp, ht, List.drop_length, pieces_nil]

/-- It is the first one then. -/
theorem first?_of_makes {r : Rule} {p : Piece} (h : Rule.Makes r p) :
    Piece.first? p.text = some p := by
  obtain ⟨c, cs, htext, hp, -⟩ := exists_eq_cons_of_pieces_eq_cons (pieces_of_makes h)
  rw [htext, Piece.first?, hp]

/-- It stays one in front of what it stops at. -/
theorem pieces_append_of_makes {r : Rule} {p : Piece} {d : Char} (h : Rule.Makes r p)
    (hd : p.StopsAt d) (tail : List Char) :
    pieces (p.text ++ d :: tail) = p :: pieces (d :: tail) := by
  have hp := pieces_of_makes h
  rw [pieces_append, hp, List.singleton_append]
  rw [hp]
  intro q hq
  rwa [List.mem_singleton.1 hq]

namespace ReadsAs

variable {text rest : List Char} {ts : List (Kind × List Char)}

theorem nil : ReadsAs [] [] := by
  rw [ReadsAs, pieces_nil]
  exact ⟨rfl, rfl⟩

/-- A gap does not count. -/
theorem of_gap {g : List Char} (hp : pieces text = .gap g :: pieces rest)
    (h : ReadsAs rest ts) : ReadsAs text ts := by
  rw [ReadsAs, hp]
  exact h

theorem of_token {t : Kind × List Char} (hp : pieces text = .token t.1 t.2 :: pieces rest)
    (h : ReadsAs rest ts) : ReadsAs text (t :: ts) := by
  rw [ReadsAs, hp]
  exact ⟨congrArg (t :: ·) h.1, h.2⟩

/-- A blank or a newline is a gap, whatever follows it. -/
theorem space {c : Char} (hc : Text.isSpace c = true) (h : ReadsAs rest ts) :
    ReadsAs (c :: rest) ts := by
  refine of_gap (g := [c]) ?_ h
  rw [pieces_cons, Piece.first_of_isSpace hc]
  rfl

/-- So is a comment in front of the newline that ends it. -/
theorem comment (ht : text ∈ Rule.comment.language) (h : ReadsAs ('\n' :: rest) ts) :
    ReadsAs (text ++ '\n' :: rest) ts :=
  of_gap (pieces_append_of_makes (.comment ht) rfl rest) h

/-- So is a comment that ends the text. -/
theorem last_comment (ht : text ∈ Rule.comment.language) : ReadsAs text [] := by
  refine of_gap (g := text) ?_ nil
  rw [pieces_nil]
  exact pieces_of_makes (.comment ht)

/-- A token is read whole if nothing lengthens it. -/
theorem token {t : Kind × List Char} {r : Rule} (ht : Rule.Makes r (.token t.1 t.2))
    (hr : Apart rest) (h : ReadsAs rest ts) : ReadsAs (t.2 ++ rest) (t :: ts) := by
  cases rest with
  | nil =>
    refine of_token ?_ h
    rw [List.append_nil, pieces_nil]
    exact pieces_of_makes ht
  | cons d tail =>
    have hd : Text.isSpace d = true := hr d rfl
    exact of_token (pieces_append_of_makes ht hd tail) h

end ReadsAs

theorem isSpace_of_mem {text : List Char}
    (h : text ∈ Rule.blank.language + Rule.newline.language) :
    ∃ c, text = [c] ∧ Text.isSpace c = true := by
  rcases (Language.mem_add _ _ _).1 h with ⟨c, hc, rfl⟩ | rfl
  · exact ⟨c, rfl, Text.isSpace_iff.2 (Or.inr hc)⟩
  · exact ⟨'\n', rfl, rfl⟩

section

variable {text rest : List Char} {ts : List (Kind × List Char)}

/-- Fill does not count. -/
theorem ReadsAs.fill (ht : text ∈ Rule.fill) (h : ReadsAs rest ts) : ReadsAs (text ++ rest) ts := by
  obtain ⟨parts, rfl, hparts⟩ := Language.mem_kstar.1 ht
  clear ht
  induction parts with
  | nil => exact h
  | cons part parts ih =>
    have hrest := ih (fun q hq => hparts q (List.mem_cons_of_mem _ hq))
    rw [List.flatten_cons, List.append_assoc]
    rcases (Language.mem_add _ _ _).1 (hparts part List.mem_cons_self) with hp | hp
    · obtain ⟨c, rfl, hc⟩ := isSpace_of_mem hp
      exact ReadsAs.space hc hrest
    · obtain ⟨comment, hcomment, _, rfl, rfl⟩ := Language.mem_mul.1 hp
      rw [List.append_assoc, List.singleton_append]
      exact ReadsAs.comment hcomment (ReadsAs.space rfl hrest)

/-- A separator starts with a blank or a newline, and does not count. -/
theorem ReadsAs.separator (ht : text ∈ Rule.separator) (h : ReadsAs rest ts) :
    Apart (text ++ rest) ∧ ReadsAs (text ++ rest) ts := by
  obtain ⟨_, hfirst, more, hmore, rfl⟩ := Language.mem_mul.1 ht
  obtain ⟨c, rfl, hc⟩ := isSpace_of_mem hfirst
  rw [List.append_assoc, List.singleton_append]
  refine ⟨fun d hd => ?_, ReadsAs.space hc (ReadsAs.fill hmore h)⟩
  obtain rfl := Option.some.inj hd
  exact hc

/-- What ends a text lengthens no token, and does not count. -/
theorem ReadsAs.trailer (ht : text ∈ Rule.trailer) : Apart text ∧ ReadsAs text [] := by
  rcases (Language.mem_add _ _ _).1 ht with hnil | hmul
  · rw [(Language.mem_one text).1 hnil]
    exact ⟨fun d hd => (nomatch hd), ReadsAs.nil⟩
  · obtain ⟨sep, hsep, comment, hcomment, rfl⟩ := Language.mem_mul.1 hmul
    refine ReadsAs.separator hsep ?_
    rcases (Language.mem_add _ _ _).1 hcomment with hnil | hcomment
    · rw [(Language.mem_one comment).1 hnil]
      exact ReadsAs.nil
    · exact ReadsAs.last_comment hcomment

/-- Joined tokens are read one by one, up to what follows the last one. -/
theorem ReadsAs.joined {sep : Nat → List Char}
    (hts : ∀ t ∈ ts, ∃ r, Rule.Makes r (.token t.1 t.2)) (hsep : ∀ i, sep i ∈ Rule.separator)
    (hapart : Apart rest) (hrest : ReadsAs rest []) : ReadsAs (joined sep ts ++ rest) ts := by
  fun_induction LoxTokens.joined sep ts with
  | case1 => exact hrest
  | case2 sep t =>
    obtain ⟨r, hr⟩ := hts t List.mem_cons_self
    exact ReadsAs.token hr hapart hrest
  | case3 sep t u ts ih =>
    obtain ⟨r, hr⟩ := hts t List.mem_cons_self
    have htail := ih (fun v hv => hts v (List.mem_cons_of_mem t hv)) (fun i => hsep (i + 1))
    obtain ⟨hnext, hread⟩ := ReadsAs.separator (hsep 0) htail
    rw [List.append_assoc, List.append_assoc]
    exact ReadsAs.token hr hnext hread

end

/-- The scan of a text that reads as tokens has these tokens and no errors. -/
theorem ReadsAs.scan {text : List Char} {ts : List (Kind × List Char)} (h : ReadsAs text ts) :
    (Scan.ofText text).errors = [] ∧
      (tokensFrom {} (pieces text)).map Token.reading = ts := by
  refine ⟨?_, (map_reading_tokensFrom {} _).trans h.1⟩
  have herrors := map_culprit?_errorsFrom {} (pieces text)
  rw [h.2] at herrors
  rw [Scan.ofText_eq_ofPieces]
  exact List.map_eq_nil_iff.1 herrors

/-- What is written is read back. However tokens are separated, and whatever blanks, newlines and
comments stand in front of them and behind them, the scan of the text has these tokens in order, the
end behind them, and no errors. The value of a string is the text between its quotes. -/
theorem scan_joined {before after : List Char} {sep : Nat → List Char}
    {ts : List (Kind × List Char)} (hts : ∀ t ∈ ts, ∃ r, Rule.Makes r (.token t.1 t.2))
    (hbefore : before ∈ Rule.fill) (hsep : ∀ i, sep i ∈ Rule.separator)
    (hafter : after ∈ Rule.trailer) :
    (Scan.ofText (before ++ joined sep ts ++ after)).errors = [] ∧
      ∃ us e, (Scan.ofText (before ++ joined sep ts ++ after)).tokens = us ++ [e] ∧
        us.map Token.reading = ts ∧ e.kind = .eof ∧ e.lexeme = "" ∧
        ∀ u ∈ us, u.kind = .string → ∃ body, u.lexeme.toList = '"' :: body ++ ['"'] ∧
          u.literal = some (.text (String.ofList body)) := by
  obtain ⟨hapart, hend⟩ := ReadsAs.trailer hafter
  have hread : ReadsAs (before ++ joined sep ts ++ after) ts := by
    rw [List.append_assoc]
    exact ReadsAs.fill hbefore (ReadsAs.joined hts hsep hapart hend)
  obtain ⟨herrors, htokens⟩ := hread.scan
  refine ⟨herrors, _, _, by rw [Scan.ofText_eq_ofPieces, Scan.ofPieces], htokens, rfl, rfl, ?_⟩
  intro u hu hkind
  obtain ⟨r, hr⟩ := hts u.reading (htokens ▸ List.mem_map_of_mem hu)
  obtain ⟨here, kind, text, -, rfl⟩ := mem_tokensFrom_iff.1 hu
  obtain rfl : kind = .string := hkind
  rw [Token.reading, Token.startAt, String.toList_ofList] at hr
  obtain ⟨body, -, rfl⟩ := Rule.mem_string_iff.1 (Rule.mem_string_of_makes hr)
  refine ⟨body, by rw [Token.startAt, String.toList_ofList], ?_⟩
  simp [Token.startAt, Literal.ofLexeme]

/-- Quotes in comments open nothing, slashes in a string start nothing, and no token is lengthened
over a blank. -/
theorem scan_joined_quotes :
    (Scan.ofText "//\"\n! = \"//\n\" 1.5 or\n//@".toList).errors = [] ∧
      (Scan.ofText "//\"\n! = \"//\n\" 1.5 or\n//@".toList).tokens.map Token.reading =
        [(.symbol .bang, ['!']), (.symbol .equal, ['=']), (.string, ['"', '/', '/', '\n', '"']),
          (.number, ['1', '.', '5']), (.keyword .orWord, ['o', 'r']), (.eof, [])] := by
  have hcomment {c : Char} (hc : '\n' ∉ [c]) : ['/', '/', c] ∈ Rule.comment.language :=
    Rule.mem_comment_iff.2 ⟨[c], hc, rfl⟩
  have hbefore : ['/', '/', '"', '\n'] ∈ Rule.fill := by
    refine Language.mem_kstar.2 ⟨[['/', '/', '"', '\n']], rfl, fun part hpart => ?_⟩
    obtain rfl := List.mem_singleton.1 hpart
    exact Or.inr ⟨_, hcomment (by decide), ['\n'], rfl, rfl⟩
  have hsep : [' '] ∈ Rule.separator :=
    ⟨[' '], Or.inl ⟨' ', Or.inl rfl, rfl⟩, [], Language.nil_mem_kstar _, rfl⟩
  have hafter : ['\n', '/', '/', '@'] ∈ Rule.trailer := by
    have hnewline : ['\n'] ∈ Rule.separator :=
      ⟨['\n'], Or.inr rfl, [], Language.nil_mem_kstar _, rfl⟩
    exact Or.inr ⟨_, hnewline, _, Or.inr (hcomment (by decide)), rfl⟩
  have hstring : ['"', '/', '/', '\n', '"'] ∈ Rule.string.language :=
    Rule.mem_string_iff.2 ⟨['/', '/', '\n'], by decide, rfl⟩
  have hnumber : ['1', '.', '5'] ∈ Rule.number.language :=
    Rule.mem_number_iff.2
      ⟨['1'], List.cons_ne_nil _ _, List.forall_mem_singleton.2 rfl,
        Or.inr ⟨['5'], List.cons_ne_nil _ _, List.forall_mem_singleton.2 rfl, rfl⟩⟩
  have hts : ∀ t ∈ [(.symbol .bang, ['!']), (.symbol .equal, ['=']),
      (.string, ['"', '/', '/', '\n', '"']), (.number, ['1', '.', '5']),
      (.keyword .orWord, ['o', 'r'])], ∃ r, Rule.Makes r (.token t.1 t.2) := by
    simp only [List.forall_mem_cons]
    exact ⟨⟨_, .symbol .bang⟩, ⟨_, .symbol .equal⟩, ⟨_, .string hstring⟩, ⟨_, .number hnumber⟩,
      ⟨_, .keyword .orWord⟩, fun t ht => (nomatch ht)⟩
  obtain ⟨herrors, us, e, htokens, hus, hkind, hlexeme, -⟩ :=
    scan_joined hts hbefore (fun _ => hsep) hafter
  refine ⟨herrors, htokens.symm ▸ ?_⟩
  rw [List.map_append, hus, List.map_singleton, Token.reading, hkind, hlexeme]
  rfl

end LoxTokens
