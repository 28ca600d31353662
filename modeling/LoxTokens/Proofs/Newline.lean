import LoxTokens.Proofs.Boundary
import LoxTokens.Proofs.Shift

/-!
# Newlines between texts

A newline separates two texts for good, unless a string of the first one runs over it. Whatever a
lexeme at the end of the first text would have taken at the end of the input, it takes in front of
the newline, and behind the newline reading starts anew. So the scan of both is the scan of the
first without its end, and then the scan of the second, moved by the first text and the newline.
-/

namespace LoxTokens

/-- No string is left open at the end of the text. -/
def Scan.Closed (s : Scan) : Prop :=
  ∀ opened span, LexError.unterminatedString opened span ∉ s.errors

/-- Whatever is wrong is a character. -/
theorem Scan.closed_iff {s : Scan} :
    s.Closed ↔ ∀ e ∈ s.errors, e.code = Code.unexpectedCharacter := by
  constructor
  · intro h e he
    cases e with
    | unexpectedCharacter c span => rfl
    | unterminatedString opened span => exact absurd he (h opened span)
  · intro h opened span he
    have hcode : Code.unterminatedString ≠ Code.unexpectedCharacter := by decide
    exact hcode (h _ he)

instance (s : Scan) : Decidable s.Closed := decidable_of_iff _ Scan.closed_iff.symm

/-- A piece stands at some place among pieces that follow one another. -/
theorem exists_mem_located {p : Piece} {ps : List Piece} (h : p ∈ ps) (place : Location) :
    ∃ here, (here, p) ∈ located place ps := by
  rw [← map_snd_located place ps] at h
  obtain ⟨⟨here, q⟩, hm, rfl⟩ := List.mem_map.1 h
  exact ⟨here, hm⟩

/-- A text leaves no string open if and only if none of its pieces is open. -/
theorem closed_ofText_iff {text : List Char} :
    (Scan.ofText text).Closed ↔ ∀ part, .unclosed part ∉ pieces text := by
  rw [Scan.ofText_eq_ofPieces]
  constructor
  · intro h part hp
    obtain ⟨here, hm⟩ := exists_mem_located hp {}
    exact h _ _ (unterminatedString_mem_errorsFrom_iff.2 ⟨here, part, hm, rfl, rfl⟩)
  · intro h opened span he
    obtain ⟨here, part, hm, -, -⟩ := unterminatedString_mem_errorsFrom_iff.1 he
    exact h part (mem_of_mem_located hm)

/-- A text and a newline move what stands behind them to the start of a line. -/
theorem Shift.behind_newline (text : List Char) :
    Shift.behind (text ++ ['\n']) = ⟨Utf8.size text + 1, 1 + text.count '\n', 0⟩ := by
  have hsize : Utf8.size (text ++ ['\n']) = Utf8.size text + 1 := Utf8.size_append text ['\n']
  have hcount : (text ++ ['\n']).count '\n' = text.count '\n' + 1 := by simp
  have hlast : (text ++ ['\n']).rtakeWhile (· != '\n') = [] :=
    List.rtakeWhile_concat_neg _ _ _ (by simp)
  rw [Shift.behind, hsize, lineBehind, hcount, columnBehind, hlast]
  simp only [Nat.add_sub_cancel_left, List.length_nil, Nat.add_zero, Nat.sub_self, mk.injEq,
    and_true, true_and]
  omega

/-- A newline behind a text without an open string is a gap, and neither a token nor an error. -/
theorem Scan.ofText_append_newline {a : List Char} (h : (Scan.ofText a).Closed) (b : List Char) :
    Scan.ofText (a ++ '\n' :: b) =
      ⟨tokensFrom {} (pieces a) ++ ((Scan.ofText b).shift (.behind (a ++ ['\n']))).tokens,
        (Scan.ofText a).errors ++ ((Scan.ofText b).shift (.behind (a ++ ['\n']))).errors⟩ := by
  have hpieces : pieces (a ++ '\n' :: b) = (pieces a ++ [.gap ['\n']]) ++ pieces b := by
    rw [pieces_append_newline (closed_ofText_iff.1 h), List.append_assoc, List.singleton_append]
  have hfront : (pieces a ++ [Piece.gap ['\n']]).flatMap Piece.text = a ++ ['\n'] := by
    rw [List.flatMap_append, flatMap_text_pieces]
    rfl
  have htokens : tokensFrom {} (pieces a ++ [.gap ['\n']]) = tokensFrom {} (pieces a) := by
    rw [tokensFrom_append]
    exact List.append_nil _
  have herrors : errorsFrom {} (pieces a ++ [.gap ['\n']]) = (Scan.ofText a).errors := by
    rw [errorsFrom_append, Scan.ofText_eq_ofPieces]
    exact List.append_nil _
  rw [Scan.ofText_eq_append hpieces hfront, htokens, herrors]

/-- Two texts with a newline between them are scanned one by one, unless the first leaves a string
open. The tokens and errors of the first are what they are, and its end is left out. Those of the
second are moved by the bytes and the lines in front of them, and stay in their columns. -/
theorem scan_append_newline {a : List Char} (h : (Scan.ofText a).Closed) (b : List Char) :
    Scan.ofText (a ++ '\n' :: b) =
      ⟨proper (Scan.ofText a).tokens ++
          (Scan.ofText b).tokens.map (Token.shift ⟨Utf8.size a + 1, 1 + a.count '\n', 0⟩),
        (Scan.ofText a).errors ++
          (Scan.ofText b).errors.map (LexError.shift ⟨Utf8.size a + 1, 1 + a.count '\n', 0⟩)⟩ := by
  rw [Scan.ofText_append_newline h, Shift.behind_newline, proper_tokens]
  rfl

/-- A symbol at the end of the first text is not lengthened by the second, and a string that the
second leaves open is placed behind the whole. -/
theorem scan_append_newline_symbols :
    (Scan.ofText ['é', '\n', '!']).Closed ∧
      Scan.ofText (['é', '\n', '!'] ++ '\n' :: ['=', '"']) =
        ⟨[⟨.symbol .bang, "!", none, 2, ⟨3, 4, 2, 1⟩⟩,
            ⟨.symbol .equal, "=", none, 3, ⟨5, 6, 3, 1⟩⟩,
            ⟨.eof, "", none, 3, ⟨7, 7, 3, 3⟩⟩],
          [.unexpectedCharacter 'é' ⟨0, 2, 1, 1⟩,
            .unterminatedString ⟨6, 7, 3, 2⟩ ⟨7, 7, 3, 3⟩]⟩ := by
  have h : (Scan.ofText ['é', '\n', '!']).Closed := by decide +kernel
  refine ⟨h, ?_⟩
  rw [scan_append_newline h]
  decide +kernel

end LoxTokens
