import LoxTokens.Prompt
import LoxTokens.Proofs.Decimals
import LoxTokens.Proofs.Entries
import LoxTokens.Proofs.Limits

/-!
# Lines of a plain list

Each entry of a plain list is ended by a newline, but it may hold others. Only the text of a string
does, and then its value holds the same newlines again. So a list has one line for each entry if and
only if no string that is shown runs over the end of a line.
-/

namespace LoxTokens

/-- No token but a string runs over the end of a line. -/
theorem Kind.newline_not_mem_of_makes {r : Rule} {kind : Kind} {text : List Char}
    (h : Rule.Makes r (.token kind text)) (hkind : kind ≠ .string) : '\n' ∉ text := by
  have hdelimits := Kind.delimits_of_makes h
  cases h with
  | symbol | keyword | identifier => exact hdelimits
  | string => exact absurd rfl hkind
  | number h =>
    intro hnewline
    rcases Rule.isDigit_or_eq_of_mem_number h hnewline with hc | hc <;> cases hc

theorem Kind.newline_not_mem_name (k : Kind) : '\n' ∉ k.name.toList := by
  cases k with
  | symbol s => cases s <;> decide
  | keyword w => cases w <;> decide
  | identifier | string | number | eof => decide

/-- The text of a number has no newline. -/
theorem Literal.newline_not_mem_numberText (x : Binary64) : '\n' ∉ (numberText x).toList := by
  have hwrite : ∀ c ∈ (numbers.write x).toList, c ≠ '\n' := by
    refine Binary64.Layout.forall_mem_write (fun c hc => ?_) (by decide) (by decide) (by decide)
      nofun x
    rintro rfl
    cases hc
  unfold numberText
  split
  · decide
  split
  · split <;> decide
  · exact fun h => hwrite _ h rfl

namespace Token

variable {t : Token} {source : List Char}

theorem newline_not_mem_lexeme (h : t ∈ (Scan.ofText source).tokens) (hkind : t.kind ≠ .string) :
    '\n' ∉ t.lexeme.toList := by
  obtain ⟨place, kind, text, r, hr, rfl⟩ | ⟨place, rfl⟩ := cases_of_mem h
  · rw [startAt, String.toList_ofList]
    exact Kind.newline_not_mem_of_makes hr hkind
  · exact List.not_mem_nil

/-- What is no string has a number as its value, or none. -/
theorem Readable.literal_cases (ht : t.Readable) (hkind : t.kind ≠ .string) :
    t.literal = none ∨ ∃ x, t.literal = some (.number x) := by
  rw [ht.literal_eq]
  cases hk : t.kind with
  | string => exact absurd hk hkind
  | number => exact Or.inr ⟨_, rfl⟩
  | symbol | keyword | identifier | eof => exact Or.inl rfl

/-- The value of a token holds the newlines of its text. -/
theorem count_newline_behind (h : t ∈ (Scan.ofText source).tokens) :
    t.behind.count '\n' = t.lexeme.toList.count '\n' + 1 := by
  have hreadable := readable_of_mem h
  by_cases hkind : t.kind = .string
  · have hdelimits := hreadable.delimits
    have hvalue := hreadable.literal_eq
    rw [hkind] at hdelimits hvalue
    obtain ⟨body, -, htext⟩ := hdelimits
    have hbody : t.literal = some (.text (String.ofList body)) := by
      rw [hvalue, htext]
      simp [Literal.ofLexeme]
    rw [behind, hbody, htext]
    simp [Literal.shown]
  · rw [List.count_eq_zero_of_not_mem (newline_not_mem_lexeme h hkind)]
    obtain hnone | ⟨x, hx⟩ := hreadable.literal_cases hkind
    · rw [behind_of_literal_eq_none hnone]
      rfl
    · have hshown := Literal.newline_not_mem_numberText x
      rw [behind, hx]
      simp [Literal.shown, List.count_eq_zero_of_not_mem hshown]

/-- Each newline in the text of a token stands twice in the line of its entry, which has one
more. -/
theorem count_newline_entry_line (h : t ∈ (Scan.ofText source).tokens) :
    (t.entry.toList ++ ['\n']).count '\n' = 1 + 2 * t.lexeme.toList.count '\n' := by
  have hname := List.count_eq_zero_of_not_mem t.kind.newline_not_mem_name
  rw [entry_line, List.count_append, List.count_cons_of_ne (by decide), List.count_append,
    count_newline_behind h, hname]
  omega

end Token

namespace Listing

variable {ts : List Token} {source : List Char}

/-- A list has a newline for each entry, and two for each newline in a text. -/
theorem count_newline_entries (h : ∀ t ∈ ts, t ∈ (Scan.ofText source).tokens) :
    (entries ts).count '\n' = ts.length + 2 * (ts.map fun t => t.lexeme.toList.count '\n').sum := by
  induction ts with
  | nil => rfl
  | cons t ts ih =>
    obtain ⟨ht, hts⟩ := List.forall_mem_cons.1 h
    have hfirst := Token.count_newline_entry_line ht
    have hrest := ih hts
    rw [entries] at hrest ⊢
    rw [List.flatMap_cons, List.count_append, hfirst, hrest, List.length_cons, List.map_cons,
      List.sum_cons]
    omega

/-- The lines of a list are its entries if and only if no text runs over the end of a line. -/
theorem lines_entries_iff (h : ∀ t ∈ ts, t ∈ (Scan.ofText source).tokens) :
    Prompt.lines (Utf8.encode (entries ts)) =
        ts.map (fun t => Utf8.encode (t.entry.toList ++ ['\n'])) ↔
      ∀ t ∈ ts, '\n' ∉ t.lexeme.toList := by
  constructor
  · intro hlines t ht hnewline
    have hline : Utf8.encode (t.entry.toList ++ ['\n']) ∈
        Prompt.lines (Utf8.encode (entries ts)) := by
      rw [hlines]
      exact List.mem_map_of_mem ht
    have hle := Prompt.count_newline_le_of_mem_lines hline
    have hpos := List.count_pos_iff.2 hnewline
    rw [Utf8.count_newline_encode, Token.count_newline_entry_line (h t ht)] at hle
    omega
  · intro hnone
    have hentry : ∀ t ∈ ts, 10 ∉ Utf8.encode t.entry.toList := by
      intro t ht hm
      have hcount := Token.count_newline_entry_line (h t ht)
      have hpos := List.count_pos_iff.2 (Utf8.newline_mem_encode_iff.1 hm)
      rw [List.count_eq_zero_of_not_mem (hnone t ht), List.count_append] at hcount
      simp only [List.count_singleton_self] at hcount
      omega
    have hlines := Prompt.lines_flatMap hentry
    have hnewline : Utf8.encode ['\n'] = [10] := rfl
    simp only [entries, Utf8.encode_flatMap, Utf8.encode_append, hnewline]
    exact hlines

end Listing

/-- A sink without a limit takes a plain list as a whole. -/
theorem Inspection.accepted_list_entries {c : Config} {source : List Char} {log kept : Log}
    (hformat : c.format = .text)
    (h : log.recordAll (Scan.ofText source).diagnostics = (kept, none)) :
    (list c source {} log).out.accepted =
      Utf8.encode (Listing.entries (Listing.shown c (Scan.ofText source).tokens)) := by
  rw [list_out h, Listing.write_of_unlimited rfl, Sink.accepted_take, Listing.text, hformat]
  rfl

/-- Only the text of a string has newlines. If a strict log refuses an error, nothing is written.
Otherwise the plain list of the tokens of a text is written as one entry behind the other, each with
a newline behind it. The newlines are as many as the tokens that are shown, and two more for each
one in the text of a string. So each line is the entry of a token, and each entry is a line, if and
only if no string that is shown has a newline in it. -/
theorem Inspection.list_entry_lines (c : Config) (source : List Char) (log : Log) :
    let shown := Listing.shown c (Scan.ofText source).tokens
    let listed := list { c with format := .text } source {} log
    let written := listed.out.accepted
    (∀ t ∈ shown, '\n' ∈ t.lexeme.toList → t.kind = .string) ∧
      (log.strict = true → (Scan.ofText source).hasErrors = true →
        listed.refused.isSome = true ∧ written = []) ∧
      (log.strict = false ∨ (Scan.ofText source).hasErrors = false →
        listed.refused = none ∧
        written = shown.flatMap (fun t => Utf8.encode (t.entry.toList ++ ['\n'])) ∧
        written.count 10 =
          shown.length + 2 * (shown.map fun t => t.lexeme.toList.count '\n').sum ∧
        (Prompt.lines written = shown.map (fun t => Utf8.encode (t.entry.toList ++ ['\n'])) ↔
          ∀ t ∈ shown, '\n' ∉ t.lexeme.toList)) := by
  intro shown listed written
  have hshown : ∀ t ∈ shown, t ∈ (Scan.ofText source).tokens :=
    fun t ht => List.mem_of_mem_filter ht
  refine ⟨fun t ht hnewline => ?_, fun hstrict herrors => ?_, fun hlog => ?_⟩
  · by_contra hkind
    exact Token.newline_not_mem_lexeme (hshown t ht) hkind hnewline
  · obtain ⟨hrefused, hout⟩ := list_of_strict hstrict herrors { c with format := .text } {}
    exact ⟨hrefused, congrArg Sink.accepted hout⟩
  · have hrecorded := Log.recordAll_of_not_refused (refuses_eq_false hlog)
    have hwritten : written = Utf8.encode (Listing.entries shown) :=
      accepted_list_entries rfl hrecorded
    rw [hwritten]
    refine ⟨list_refused hrecorded _ _, Utf8.encode_flatMap _ _, ?_,
      Listing.lines_entries_iff hshown⟩
    rw [Utf8.count_newline_encode, Listing.count_newline_entries hshown]

/-- A string over two lines takes two lines for its text and one more for its value, which begins
on the last line of the text. -/
theorem Inspection.list_entry_lines_string :
    ¬ (list {} ['"', 'a', '\n', 'b', '"'] {} {}).out.accepted.count 10 =
      (Listing.shown {} (Scan.ofText ['"', 'a', '\n', 'b', '"']).tokens).length := by
  decide +kernel

end LoxTokens
