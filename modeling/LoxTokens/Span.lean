import LoxTokens.Location

/-!
# Spans

A span is a range of byte offsets together with the line and the column at which it starts. Spans
are plain data: a range may be inverted or reach past any text, and then it selects nothing.
-/

namespace LoxTokens

/-- A byte range and the place where it starts. -/
structure Span where
  /-- The offset of the first byte. -/
  start : Nat
  /-- The offset behind the last byte. -/
  stop : Nat
  /-- The line of the first byte. -/
  line : Nat
  /-- The column of the first byte. -/
  column : Nat
  deriving DecidableEq, Repr

namespace Span

/-- The span of something that stands in no text. -/
def dummy : Span := ⟨0, 0, 0, 0⟩

/-- A line and a column without a range. -/
def point (line column : Nat) : Span := ⟨0, 0, line, column⟩

/-- The range between two places of one text. -/
def between (a b : Location) : Span := ⟨a.offset, b.offset, a.line, a.column⟩

/-- Bytes in the range: none if it is inverted. -/
def length (s : Span) : Nat := s.stop - s.start

/-- A range is empty if it stops where it starts. -/
def isEmpty (s : Span) : Bool := s.start == s.stop

/-- The least range around two spans, placed where the earlier one starts. -/
def join (a b : Span) : Span where
  start := min a.start b.start
  stop := max a.stop b.stop
  line := if b.start < a.start then b.line else a.line
  column := if b.start < a.start then b.column else a.column

/-- The text that the range selects, if it stands on character boundaries of the source. -/
def slice? (s : Span) (source : String) : Option String :=
  (Utf8.slice? source.toList s.start s.stop).map String.ofList

/-- A span is shown by the place where it starts. -/
def text (s : Span) : String := toString s.line ++ ":" ++ toString s.column

end Span

end LoxTokens
