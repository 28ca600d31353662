import LoxTokens.Cause
import LoxTokens.Text.Utf8

/-!
# Sinks

A sink takes the bytes of texts until it has no room left. A text that does not fit is cut: what
fits is taken, and writing fails.
-/

namespace LoxTokens

/-- How much a sink takes. -/
inductive Capacity where
  /-- Everything. -/
  | unlimited
  /-- A number of bytes in all. -/
  | bytes (n : Nat)
  /-- Nothing: a full device, behind a buffer that is passed on at the end of each line. -/
  | full
  deriving DecidableEq, Repr

/-- Takes the bytes of texts. -/
structure Sink where
  /-- How much it takes. -/
  capacity : Capacity := .unlimited
  /-- The bytes taken so far, the latest first. -/
  taken : List UInt8 := []
  deriving DecidableEq, Repr

namespace Sink

/-- The bytes taken so far. -/
def accepted (s : Sink) : List UInt8 := s.taken.reverse

/-- The text taken so far, its last character possibly cut. -/
def text (s : Sink) : String := String.ofList (Utf8.decodeCut s.accepted)

/-- Take bytes whatever the capacity. -/
def take (s : Sink) (bytes : List UInt8) : Sink := { s with taken := bytes.reverseAux s.taken }

/-- Write a text, or as much of it as fits. A device learns of a text only at the end of a line. -/
def write (s : Sink) (text : List Char) : Sink × Option Cause :=
  match s.capacity with
  | .unlimited => (s.take (Utf8.encode text), none)
  | .bytes n =>
    let bytes := Utf8.encode text
    let room := n - s.taken.length
    (s.take (bytes.take room), if bytes.length ≤ room then none else some .sinkFull)
  | .full => (s, if text.contains '\n' then some .deviceFull else none)

/-- Write texts one after another, up to the first that does not fit. -/
def writeAll (s : Sink) : List (List Char) → Sink × Option Cause
  | [] => (s, none)
  | text :: texts =>
    match s.write text with
    | (s, none) => s.writeAll texts
    | (s, some cause) => (s, some cause)

@[simp] theorem accepted_take (s : Sink) (bytes : List UInt8) :
    (s.take bytes).accepted = s.accepted ++ bytes := by
  simp [accepted, take, List.reverseAux_eq]

@[simp] theorem capacity_take (s : Sink) (bytes : List UInt8) :
    (s.take bytes).capacity = s.capacity := rfl

theorem take_take (s : Sink) (a b : List UInt8) : (s.take a).take b = s.take (a ++ b) := by
  simp [take, List.reverseAux_eq]

/-- A sink without a limit takes every text. -/
theorem write_of_unlimited {s : Sink} (h : s.capacity = .unlimited) (text : List Char) :
    s.write text = (s.take (Utf8.encode text), none) := by
  rw [write, h]

/-- A sink for a number of bytes takes what is left of them. -/
theorem write_of_bytes {s : Sink} {n : Nat} (h : s.capacity = .bytes n) (text : List Char) :
    s.write text =
      (s.take ((Utf8.encode text).take (n - s.taken.length)),
        if (Utf8.encode text).length ≤ n - s.taken.length then none else some .sinkFull) := by
  rw [write, h]

/-- A full device takes nothing, and says so at the end of a line. -/
theorem write_of_full {s : Sink} (h : s.capacity = .full) (text : List Char) :
    s.write text = (s, if '\n' ∈ text then some .deviceFull else none) := by
  simp only [write, h, List.contains_iff_mem]

theorem length_taken_take (s : Sink) (bytes : List UInt8) :
    (s.take bytes).taken.length = s.taken.length + bytes.length := by
  rw [take, List.reverseAux_eq, List.length_append, List.length_reverse, Nat.add_comm]

theorem write_nil (s : Sink) : s.write [] = (s, none) := by
  cases h : s.capacity with
  | unlimited => exact write_of_unlimited h []
  | bytes n =>
    rw [write_of_bytes h, Utf8.encode_nil, List.take_nil, List.length_nil, if_pos (Nat.zero_le _)]
    rfl
  | full => exact write_of_full h []

/-- A text behind another is written only if the other is written as a whole. -/
theorem write_append (s : Sink) (a b : List Char) :
    s.write (a ++ b) =
      match s.write a with
      | (s, none) => s.write b
      | (s, some cause) => (s, some cause) := by
  cases h : s.capacity with
  | unlimited =>
    have hrest : (s.take (Utf8.encode a)).capacity = .unlimited := h
    simp only [write_of_unlimited h, write_of_unlimited hrest, take_take, Utf8.encode_append]
  | bytes n =>
    rw [write_of_bytes h, write_of_bytes h, Utf8.encode_append, List.length_append]
    by_cases ha : (Utf8.encode a).length ≤ n - s.taken.length
    · have hrest : (s.take (Utf8.encode a)).capacity = .bytes n := h
      have hroom : n - (s.take (Utf8.encode a)).taken.length =
          n - s.taken.length - (Utf8.encode a).length := by
        rw [length_taken_take, Nat.sub_add_eq]
      have hfits : (Utf8.encode a).length + (Utf8.encode b).length ≤ n - s.taken.length ↔
          (Utf8.encode b).length ≤ n - s.taken.length - (Utf8.encode a).length := by omega
      rw [List.take_of_length_le ha, if_pos ha]
      simp only [write_of_bytes hrest, hroom, take_take, List.take_append,
        List.take_of_length_le ha, hfits]
    · rw [List.take_append_of_le_length (Nat.le_of_not_le ha), if_neg ha, if_neg (by omega)]
  | full =>
    rw [write_of_full h, write_of_full h]
    by_cases ha : '\n' ∈ a
    · rw [if_pos ha, if_pos (List.mem_append_left b ha)]
    · simp only [List.mem_append, ha, false_or, if_false, write_of_full h]

/-- Where a text is cut into parts does not matter to a sink. -/
theorem writeAll_eq_write (s : Sink) (texts : List (List Char)) :
    s.writeAll texts = s.write texts.flatten := by
  induction texts generalizing s with
  | nil => exact (write_nil s).symm
  | cons text texts ih =>
    rw [List.flatten_cons, write_append, writeAll]
    rcases s.write text with ⟨s, _ | cause⟩
    · exact ih s
    · rfl

/-- Neither does it matter where the texts of the items of a list are cut. -/
theorem writeAll_flatMap {α : Type} {parts : α → List (List Char)} {text : α → List Char}
    (h : ∀ a, (parts a).flatten = text a) (s : Sink) (as : List α) :
    s.writeAll (as.flatMap parts) = s.write (as.flatMap text) := by
  have hflatten : (as.flatMap parts).flatten = as.flatMap text := by
    rw [List.flatten_eq_flatMap, List.flatMap_assoc]
    simp only [← List.flatten_eq_flatMap, h]
  rw [writeAll_eq_write, hflatten]

end Sink

end LoxTokens
