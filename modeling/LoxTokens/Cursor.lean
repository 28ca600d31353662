import LoxTokens.Location

/-!
# Cursors

A cursor stands between the characters already read and those still to come, and knows its
location. Cursors are values: to keep one is to be able to go back to it.
-/

namespace LoxTokens

/-- A place in a text, with the text on both sides of it. -/
structure Cursor where
  /-- The characters already read, the latest first. -/
  seen : List Char
  /-- The characters still to come. -/
  rest : List Char
  /-- The place between them. -/
  location : Location
  /-- The location is the one behind the characters already read. -/
  location_eq : location = Location.after ⟨0, 1, 1⟩ seen.reverse
  deriving DecidableEq

namespace Cursor

/-- The character reported where no character is left. -/
def endMark : Char := '\x00'

/-- Stand before a text. -/
def ofText (text : List Char) : Cursor := ⟨[], text, ⟨0, 1, 1⟩, rfl⟩

/-- Bytes already read. -/
def position (c : Cursor) : Nat := c.location.offset

/-- Nothing is left to read. -/
def atEnd (c : Cursor) : Bool := c.rest.isEmpty

/-- The whole text. -/
def source (c : Cursor) : List Char := c.seen.reverse ++ c.rest

/-- The character `k` places ahead. If no character up to there takes more than one byte, it is the
byte `k` places ahead. -/
def peek (c : Cursor) (k : Nat) : Char :=
  match Utf8.ascii? (Utf8.encode (c.rest.take (k + 1))) k with
  | some ch => ch
  | none => c.rest.getD k endMark

/-- The next character. -/
def current (c : Cursor) : Char := c.peek 0

/-- Step over the next character, if there is one. -/
def step (c : Cursor) : Cursor :=
  match h : c.rest with
  | [] => c
  | ch :: rest =>
    { seen := ch :: c.seen
      rest := rest
      location := c.location.next ch
      location_eq := by simp [c.location_eq] }

/-- Read the next character: at the end, the end mark, without moving. -/
def advance (c : Cursor) : Char × Cursor := (c.current, c.step)

/-- Step over a number of characters, or over all that are left. -/
def forward (c : Cursor) : Nat → Cursor
  | 0 => c
  | n + 1 => c.step.forward n

theorem length_rest_step_lt {c : Cursor} (h : c.atEnd = false) :
    c.step.rest.length < c.rest.length := by
  unfold step
  split
  · rename_i he
    simp [atEnd, he] at h
  · rename_i he
    simp [he]

/-- Step over the next character if it is the given one. At the end no character is, not even the
end mark. -/
def matchChar (c : Cursor) (ch : Char) : Bool × Cursor :=
  if !c.atEnd && c.current == ch then (true, c.step) else (false, c)

/-- Step over all characters up to the first that fails the test, or to the end. -/
def eatWhile (c : Cursor) (p : Char → Bool) : Cursor :=
  if _h : c.atEnd = true then c
  else if p c.current then c.step.eatWhile p
  else c
termination_by c.rest.length
decreasing_by exact length_rest_step_lt (by simpa using _h)

/-- The text from a byte offset up to the cursor: none if the offset lies ahead of the cursor or
inside a character. -/
def sliceFrom? (c : Cursor) (start : Nat) : Option (List Char) :=
  if start ≤ c.position then
    (Utf8.cut? c.seen (c.position - start)).map fun (back, _) => back.reverse
  else none

/-- Counting bytes where that is possible makes no difference. -/
theorem peek_eq_getD (c : Cursor) (k : Nat) : c.peek k = c.rest.getD k endMark := by
  unfold peek
  split
  · rename_i ch h
    have hk := Utf8.getElem?_of_ascii? h
    rw [List.getElem?_take_of_lt (Nat.lt_succ_self k)] at hk
    rw [List.getD_eq_getElem?_getD, hk, Option.getD_some]
  · rfl

/-- The next character is the first of those still to come. -/
theorem current_of_rest {c : Cursor} {ch : Char} {rest : List Char} (h : c.rest = ch :: rest) :
    c.current = ch := by
  rw [current, peek_eq_getD, h, List.getD_cons_zero]

theorem atEnd_iff {c : Cursor} : c.atEnd = true ↔ c.rest = [] := by
  rw [atEnd, List.isEmpty_iff]

@[simp] theorem rest_step (c : Cursor) : c.step.rest = c.rest.tail := by
  unfold step
  split <;> simp_all

/-- Stepping over characters drops them from those still to come. -/
@[simp] theorem rest_forward (c : Cursor) (n : Nat) : (c.forward n).rest = c.rest.drop n := by
  induction n generalizing c with
  | zero => rfl
  | succ n ih => rw [forward, ih, rest_step, List.drop_tail]

@[simp] theorem source_step (c : Cursor) : c.step.source = c.source := by
  unfold step
  split <;> simp_all [source]

/-- No step changes the text. -/
@[simp] theorem source_forward (c : Cursor) (n : Nat) : (c.forward n).source = c.source := by
  induction n generalizing c with
  | zero => rfl
  | succ n ih => rw [forward, ih, source_step]

/-- Steps add up. -/
theorem forward_forward (c : Cursor) (m n : Nat) :
    (c.forward m).forward n = c.forward (m + n) := by
  induction m generalizing c with
  | zero => rw [Nat.zero_add]; rfl
  | succ m ih => rw [forward, ih, Nat.succ_add]; rfl

theorem seen_step (c : Cursor) : c.step.seen = (c.rest.take 1).reverse ++ c.seen := by
  unfold step
  split <;> simp_all

/-- Stepping over characters puts them behind those already read. -/
theorem seen_forward (c : Cursor) (n : Nat) :
    (c.forward n).seen = (c.rest.take n).reverse ++ c.seen := by
  induction n generalizing c with
  | zero => rfl
  | succ n ih =>
    rw [forward, ih, rest_step, seen_step]
    cases c.rest <;> simp

theorem location_step (c : Cursor) : c.step.location = c.location.after (c.rest.take 1) := by
  unfold step
  split <;> simp_all

/-- Stepping over characters moves the place behind them. -/
theorem location_forward (c : Cursor) (n : Nat) :
    (c.forward n).location = c.location.after (c.rest.take n) := by
  induction n generalizing c with
  | zero => rfl
  | succ n ih =>
    rw [forward, ih, rest_step, location_step]
    cases c.rest <;> simp

/-- A cursor has read as many bytes as its position says. -/
theorem position_eq_size (c : Cursor) : c.position = Utf8.size c.seen := by
  rw [position, c.location_eq, Location.offset_after, Utf8.size_reverse, Nat.zero_add]

/-- The given character is stepped over exactly where it comes next. -/
theorem matchChar_eq (c : Cursor) (ch : Char) :
    c.matchChar ch = if c.rest.head? = some ch then (true, c.step) else (false, c) := by
  unfold matchChar
  cases h : c.rest with
  | nil => simp [atEnd, h]
  | cons d rest => simp [atEnd, h, current_of_rest h]

/-- What is eaten is the longest front of the characters still to come that passes the test. -/
theorem eatWhile_eq_forward (c : Cursor) (p : Char → Bool) :
    c.eatWhile p = c.forward (c.rest.takeWhile p).length := by
  fun_induction eatWhile c p with
  | case1 c h => rw [atEnd_iff.1 h]; rfl
  | case2 c h hp ih =>
    obtain ⟨ch, rest, hr⟩ := List.exists_cons_of_ne_nil (mt atEnd_iff.2 h)
    rw [current_of_rest hr] at hp
    rw [ih, rest_step, hr, List.takeWhile_cons_of_pos hp]
    rfl
  | case3 c h hp =>
    obtain ⟨ch, rest, hr⟩ := List.exists_cons_of_ne_nil (mt atEnd_iff.2 h)
    rw [current_of_rest hr] at hp
    rw [hr, List.takeWhile_cons_of_neg hp]
    rfl

/-- A slice is the back of what has been read, behind a front of that many bytes. -/
theorem sliceFrom?_eq_some_iff {c : Cursor} {start : Nat} {text : List Char} :
    c.sliceFrom? start = some text ↔
      ∃ front, c.seen.reverse = front ++ text ∧ Utf8.size front = start := by
  have hp := c.position_eq_size
  unfold sliceFrom?
  constructor
  · intro h
    split at h
    · obtain ⟨⟨back, front⟩, hc, rfl⟩ := Option.map_eq_some_iff.1 h
      obtain ⟨hs, hb⟩ := Utf8.cut?_eq_some_iff.1 hc
      refine ⟨front.reverse, by rw [hs, List.reverse_append], ?_⟩
      rw [hs, Utf8.size_append] at hp
      rw [Utf8.size_reverse]
      omega
    · cases h
  · rintro ⟨front, hs, hf⟩
    have hs' : c.seen = text.reverse ++ front.reverse := by
      rw [← List.reverse_append, ← hs, List.reverse_reverse]
    rw [hs', Utf8.size_append, Utf8.size_reverse, Utf8.size_reverse] at hp
    have hc : Utf8.cut? c.seen (c.position - start) = some (text.reverse, front.reverse) :=
      Utf8.cut?_eq_some_iff.2 ⟨hs', by rw [Utf8.size_reverse]; omega⟩
    rw [if_pos (by omega), hc]
    exact congrArg some (List.reverse_reverse text)

/-- From a place where the cursor once stood, the slice is what has been read since. -/
theorem sliceFrom?_forward (c : Cursor) (n : Nat) :
    (c.forward n).sliceFrom? c.position = some (c.rest.take n) := by
  refine sliceFrom?_eq_some_iff.2 ⟨c.seen.reverse, ?_, ?_⟩
  · rw [seen_forward, List.reverse_append, List.reverse_reverse]
  · rw [Utf8.size_reverse, position_eq_size]

end Cursor

end LoxTokens
