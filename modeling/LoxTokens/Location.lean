import LoxTokens.Text.Utf8

/-!
# Locations

A location is a place between two characters of a text: its byte offset, its line, and its column
counted in characters. Lines and columns start at one, and only a newline starts a line.
-/

namespace LoxTokens

/-- A place in a text. -/
structure Location where
  /-- Bytes before the place. -/
  offset : Nat := 0
  /-- One more than the newlines before the place. -/
  line : Nat := 1
  /-- One more than the characters between the last newline and the place. -/
  column : Nat := 1
  deriving DecidableEq, Repr

namespace Location

/-- The place behind one character. -/
def next (l : Location) (c : Char) : Location :=
  if c = '\n' then ⟨l.offset + c.utf8Size, l.line + 1, 1⟩
  else ⟨l.offset + c.utf8Size, l.line, l.column + 1⟩

/-- The place behind a text. -/
def after (l : Location) (text : List Char) : Location := text.foldl next l

@[simp] theorem after_nil (l : Location) : l.after [] = l := rfl

@[simp] theorem after_cons (l : Location) (c : Char) (text : List Char) :
    l.after (c :: text) = (l.next c).after text := rfl

@[simp] theorem after_append (l : Location) (s t : List Char) :
    l.after (s ++ t) = (l.after s).after t := by
  simp [after]

theorem offset_next (l : Location) (c : Char) : (l.next c).offset = l.offset + c.utf8Size := by
  unfold next
  split <;> rfl

/-- Offsets grow by the bytes of the text passed. -/
theorem offset_after (l : Location) (text : List Char) :
    (l.after text).offset = l.offset + Utf8.size text := by
  induction text generalizing l with
  | nil => simp
  | cons c text ih => rw [after_cons, ih, offset_next, Utf8.size_cons, Nat.add_assoc]

end Location

end LoxTokens
