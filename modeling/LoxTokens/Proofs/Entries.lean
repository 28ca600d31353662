import LoxTokens.Listing
import LoxTokens.Proofs.Grammar.Cut

/-!
# Reading entries back

Entries stand one behind the other without any escape, and the text of a string may hold blanks,
newlines, and what looks like other entries. Still a list of entries reads in one way. A tag ends at
the first blank, and the tag says where the text behind it ends: a string at its second quote, a
number at a blank, any other token at the end of the line.
-/

namespace LoxTokens

/-- A front without a character ends at the first one. -/
theorem append_cons_inj {q : Char} {a b x y : List Char} (ha : q ∉ a) (hb : q ∉ b)
    (h : a ++ q :: x = b ++ q :: y) : a = b ∧ x = y := by
  have hfront := congrArg (List.takeWhile (· != q)) h
  rw [Piece.takeWhile_bne_append ha, Piece.takeWhile_bne_append hb] at hfront
  subst hfront
  exact ⟨rfl, (List.cons.inj (List.append_cancel_left h)).2⟩

/-- A text of a kind of token can be told from what an entry shows behind it. -/
def Kind.Delimits : Kind → List Char → Prop
  | .string, text => ∃ body, '"' ∉ body ∧ text = '"' :: body ++ ['"']
  | .number, text => ' ' ∉ text
  | _, text => '\n' ∉ text

theorem Kind.delimits_of_makes {r : Rule} {kind : Kind} {text : List Char}
    (h : Rule.Makes r (.token kind text)) : kind.Delimits text := by
  cases h with
  | symbol s =>
    have hnewline : '\n' ∉ s.spelling := by cases s <;> decide
    exact hnewline
  | keyword k =>
    have hnewline : '\n' ∉ k.spelling := by cases k <;> decide
    exact hnewline
  | string h => exact Rule.mem_string_iff.1 h
  | number h =>
    intro hblank
    rcases Rule.isDigit_or_eq_of_mem_number h hblank with hc | hc <;> cases hc
  | identifier h =>
    intro hnewline
    obtain ⟨c, cs, rfl, hc, hcs⟩ := Rule.mem_word_iff.1 h
    rcases List.mem_cons.1 hnewline with rfl | hm
    · cases hc
    · cases hcs _ hm

namespace Token

/-- The text of a token is delimited, and its value is that of the text. -/
structure Readable (t : Token) : Prop where
  /-- Where the text ends can be told. -/
  delimits : t.kind.Delimits t.lexeme.toList
  /-- The value is read off the text. -/
  literal_eq : t.literal = Literal.ofLexeme t.kind t.lexeme.toList

/-- Two tokens are the same but for where they stand. -/
def Agrees (t u : Token) : Prop := t.kind = u.kind ∧ t.lexeme = u.lexeme ∧ t.literal = u.literal

/-- What stands behind the text of a token in its line. -/
def behind (t : Token) : List Char :=
  (match t.literal with
  | some value => ' ' :: value.shown.toList
  | none => []) ++ ['\n']

theorem entry_line (t : Token) :
    t.entry.toList ++ ['\n'] = t.kind.name.toList ++ ' ' :: (t.lexeme.toList ++ t.behind) := by
  unfold entry behind
  cases t.literal <;> simp

variable {t u : Token}

/-- A rule makes the text of a token, unless it is that of the end. -/
theorem cases_of_mem {source : List Char} (h : t ∈ (Scan.ofText source).tokens) :
    (∃ place kind text r, Rule.Makes r (.token kind text) ∧ t = startAt place kind text) ∨
      ∃ place, t = endAt place := by
  rw [Scan.ofText_eq_ofPieces] at h
  rcases List.mem_append.1 h with h | h
  · obtain ⟨here, kind, text, hp, rfl⟩ := mem_tokensFrom_iff.1 h
    obtain ⟨r, hr⟩ := exists_makes_of_mem_pieces (mem_of_mem_located hp)
    exact Or.inl ⟨here, kind, text, r, hr, rfl⟩
  · exact Or.inr ⟨_, List.mem_singleton.1 h⟩

/-- All tokens of a scan are readable. -/
theorem readable_of_mem {source : List Char} (h : t ∈ (Scan.ofText source).tokens) :
    t.Readable := by
  obtain ⟨place, kind, text, r, hr, rfl⟩ | ⟨place, rfl⟩ := cases_of_mem h
  · rw [← String.toList_ofList (l := text)] at hr
    exact ⟨Kind.delimits_of_makes hr, by rw [startAt, String.toList_ofList]⟩
  · exact ⟨List.not_mem_nil, rfl⟩

/-- Behind the text of a number stands a blank. -/
theorem Readable.exists_behind_eq (ht : t.Readable) (hkind : t.kind = .number) :
    ∃ shown, t.behind = ' ' :: shown := by
  obtain ⟨x, hx⟩ : ∃ x, t.literal = some (.number x) := by
    rw [ht.literal_eq, hkind]
    exact ⟨_, rfl⟩
  rw [behind, hx]
  exact ⟨_, rfl⟩

/-- Behind the text of a token without a value the line ends. -/
theorem behind_of_literal_eq_none (h : t.literal = none) : t.behind = ['\n'] := by
  rw [behind, h]
  rfl

/-- In front of what stands behind it, the text of a token of a kind ends in one way. -/
theorem Readable.lexeme_eq (ht : t.Readable) (hu : u.Readable) (hkind : t.kind = u.kind)
    {x y : List Char} (h : t.lexeme.toList ++ t.behind ++ x = u.lexeme.toList ++ u.behind ++ y) :
    t.lexeme = u.lexeme := by
  have htext := ht.delimits
  have hutext := hu.delimits
  have hvalue := ht.literal_eq
  have huvalue := hu.literal_eq
  rw [← hkind] at hutext huvalue
  rw [List.append_assoc, List.append_assoc] at h
  refine String.toList_injective ?_
  cases hk : t.kind with
  | string =>
    rw [hk] at htext hutext
    obtain ⟨body, hb, hbody⟩ := htext
    obtain ⟨body', hb', hbody'⟩ := hutext
    rw [hbody, hbody'] at h ⊢
    simp only [List.append_assoc, List.cons_append, List.cons.injEq, true_and] at h
    rw [(append_cons_inj hb hb' h).1]
  | number =>
    rw [hk] at htext hutext
    obtain ⟨shown, hs⟩ := ht.exists_behind_eq hk
    obtain ⟨shown', hs'⟩ := hu.exists_behind_eq (hkind ▸ hk)
    rw [hs, hs'] at h
    exact (append_cons_inj htext hutext h).1
  | symbol | keyword | identifier | eof =>
    rw [hk] at htext hutext hvalue huvalue
    rw [behind_of_literal_eq_none hvalue, behind_of_literal_eq_none huvalue] at h
    exact (append_cons_inj htext hutext h).1

end Token

namespace Listing

end Listing

end LoxTokens
