import LoxTokens.Proofs.Places

/-!
# Cursors in use

A cursor can be moved, copied and gone back to in any order. It always stands between two
characters of its text and knows the place. No character is taken for the end of the text, the end
mark included. Looking ahead counts bytes where it can, and characters elsewhere, with one result.
-/

namespace LoxTokens

namespace Cursor

/-- What can be done with a cursor. -/
inductive Act where
  /-- Read the next character. -/
  | advance
  /-- Step over the next character if it is the given one. -/
  | matchChar (ch : Char)
  /-- Step over all characters up to the first that fails the test. -/
  | eatWhile (p : Char → Bool)
  /-- Keep a copy. -/
  | save
  /-- Go back to a copy: the latest one, or one that was kept so many copies before. -/
  | restore (k : Nat)

/-- A cursor in use. -/
structure Session where
  /-- The cursor. -/
  cursor : Cursor
  /-- The copies that are kept, the latest first. -/
  copies : List Cursor := []

namespace Session

/-- Start reading a text. -/
def ofText (text : List Char) : Session := { cursor := Cursor.ofText text }

/-- Do one thing with the cursor. -/
def act (s : Session) : Act → Session
  | .advance => { s with cursor := s.cursor.advance.2 }
  | .matchChar ch => { s with cursor := (s.cursor.matchChar ch).2 }
  | .eatWhile p => { s with cursor := s.cursor.eatWhile p }
  | .save => { s with copies := s.cursor :: s.copies }
  | .restore k => { s with cursor := s.copies.getD k s.cursor }

/-- Do one thing after the other. -/
def run (s : Session) (acts : List Act) : Session := acts.foldl act s

end Session

section

variable {c : Cursor}

theorem size_reverse_seen (c : Cursor) : Utf8.size c.seen.reverse = c.position := by
  rw [Utf8.size_reverse, position_eq_size]

theorem source_matchChar (c : Cursor) (ch : Char) : (c.matchChar ch).2.source = c.source := by
  rw [matchChar_eq]
  split
  · exact c.source_step
  · rfl

theorem source_eatWhile (c : Cursor) (p : Char → Bool) : (c.eatWhile p).source = c.source := by
  rw [eatWhile_eq_forward, source_forward]

end

namespace Session

/-- A session is one with a text: the cursor and all its copies stand in it. -/
def In (source : List Char) (s : Session) : Prop :=
  ∀ c ∈ s.cursor :: s.copies, c.source = source

variable {source : List Char} {s : Session}

theorem in_ofText (source : List Char) : (ofText source).In source := by
  intro c hc
  rw [List.mem_singleton.1 hc]
  rfl

/-- Nothing that is done changes the text. -/
theorem In.act (h : s.In source) (a : Act) : (s.act a).In source := by
  obtain ⟨hcursor, hcopies⟩ := List.forall_mem_cons.1 h
  cases a with
  | advance => exact List.forall_mem_cons.2 ⟨(source_step _).trans hcursor, hcopies⟩
  | matchChar ch => exact List.forall_mem_cons.2 ⟨(source_matchChar _ ch).trans hcursor, hcopies⟩
  | eatWhile p => exact List.forall_mem_cons.2 ⟨(source_eatWhile _ p).trans hcursor, hcopies⟩
  | save => exact List.forall_mem_cons.2 ⟨hcursor, h⟩
  | restore k =>
    have hget : (s.copies.getD k s.cursor).source = source := by
      rw [List.getD_eq_getElem?_getD]
      cases hk : s.copies[k]? with
      | none => exact hcursor
      | some c => exact hcopies c (List.mem_of_getElem? hk)
    exact List.forall_mem_cons.2 ⟨hget, hcopies⟩

theorem In.run (h : s.In source) (acts : List Act) : (s.run acts).In source := by
  induction acts generalizing s with
  | nil => exact h
  | cons a acts ih => exact ih (h.act a)

end Session

/-- The bytes of the text behind the place where a cursor stands are those of what is still to
come. -/
theorem drop_position_encode (c : Cursor) :
    (Utf8.encode c.source).drop c.position = Utf8.encode c.rest := by
  rw [source, Utf8.encode_append, ← size_reverse_seen, ← Utf8.length_encode, List.drop_left]

/-- Looking ahead takes the byte so many places ahead where it can, and counts characters where it
cannot. -/
theorem peek_eq_ascii?_getD (c : Cursor) (k : Nat) :
    c.peek k = (Utf8.ascii? (Utf8.encode c.rest) k).getD (c.rest.getD k endMark) := by
  rw [peek, Utf8.ascii?_encode_take]
  cases Utf8.ascii? (Utf8.encode c.rest) k <;> rfl

/-- A byte that stands behind bytes of one character each, and is one itself, is the character so
many places ahead. -/
theorem exists_getElem?_of_bytes {text : List Char} {k : Nat} {b : UInt8}
    (hb : (Utf8.encode text)[k]? = some b)
    (hall : ∀ a ∈ (Utf8.encode text).take (k + 1), a.toNat < 0x80) :
    ∃ ch, text[k]? = some ch ∧ ch.toNat = b.toNat := by
  have hmem : b ∈ (Utf8.encode text).take (k + 1) :=
    List.mem_of_getElem? ((List.getElem?_take_of_lt (Nat.lt_succ_self k)).trans hb)
  have hvalid : b.toNat.isValidChar := Or.inl (Nat.lt_trans (hall b hmem) (by decide))
  have hascii : Utf8.ascii? (Utf8.encode text) k = some (Char.ofNat b.toNat) := by
    rw [Utf8.ascii?, hb]
    exact if_pos (List.all_eq_true.2 fun a ha => decide_eq_true (hall a ha))
  refine ⟨Char.ofNat b.toNat, Utf8.getElem?_of_ascii? hascii, ?_⟩
  rw [Char.ofNat, dif_pos hvalid]
  rfl

/-- Wherever a cursor has been moved, looking ahead gives the character so many places ahead, or the
end mark behind the last one, whether it goes by bytes or by characters. -/
theorem session_peek (source : List Char) (acts : List Act) (k : Nat) :
    let c := ((Session.ofText source).run acts).cursor
    let bytes := (Utf8.encode source).drop c.position
    bytes = Utf8.encode c.rest ∧
    c.peek k = (Utf8.ascii? bytes k).getD (c.rest.getD k endMark) ∧
    (∀ ch, c.rest[k]? = some ch → c.peek k = ch) ∧
    (c.rest[k]? = none → c.peek k = endMark) ∧
    ∀ b, bytes[k]? = some b → (∀ a ∈ bytes.take (k + 1), a.toNat < 0x80) →
      ∃ ch, c.rest[k]? = some ch ∧ ch.toNat = b.toNat := by
  intro c bytes
  have hsource : c.source = source :=
    (Session.in_ofText source).run acts _ List.mem_cons_self
  have hbytes : bytes = Utf8.encode c.rest := by
    rw [← drop_position_encode, hsource]
  rw [hbytes]
  refine ⟨rfl, c.peek_eq_ascii?_getD k, ?_, ?_, fun b => exists_getElem?_of_bytes⟩
  · intro ch hch
    rw [peek_eq_getD, List.getD_eq_getElem?_getD, hch, Option.getD_some]
  · intro hnone
    rw [peek_eq_getD, List.getD_eq_getElem?_getD, hnone, Option.getD_none]

/-- Between two characters of two bytes, the bytes reach farther than the characters. -/
theorem session_peek_accents :
    let source := ['é', 'a', 'é', '1']
    let c := ((Session.ofText source).run [.advance]).cursor
    (∃ ch, c.rest[0]? = some ch ∧ ch.toNat = 0x61) ∧ c.peek 2 = '1' ∧
      ((Utf8.encode source).drop c.position)[3]? = some 0x31 ∧ c.peek 3 = endMark := by
  intro source c
  obtain ⟨-, -, -, -, hbyte⟩ := session_peek source [.advance] 0
  obtain ⟨-, -, hthird, -, -⟩ := session_peek source [.advance] 2
  obtain ⟨-, -, -, hbehind, -⟩ := session_peek source [.advance] 3
  exact ⟨hbyte 0x61 (by decide +kernel) (by decide +kernel), hthird '1' (by decide +kernel),
    by decide +kernel, hbehind (by decide +kernel)⟩

end Cursor

end LoxTokens
