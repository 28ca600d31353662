import LoxTokens.Inspection
import LoxTokens.Text.Cluster.Basic

/-!
# The prompt

Each line that is entered is inspected alone, so that nothing in one line reaches another. A
backspace among the characters of a line takes back the cluster before it. The first failure ends
the prompt, and so does a backspace that would leave a part of a character behind.
-/

namespace LoxTokens.Prompt

/-- The lines of what was entered, each with the newline that ends it. -/
def lines : List UInt8 → List (List UInt8)
  | [] => []
  | b :: rest =>
    if b = 10 then [b] :: lines rest
    else match lines rest with
      | [] => [[b]]
      | line :: more => (b :: line) :: more

/-- A line stops at its first newline. -/
theorem lines_append_newline {line : List UInt8} (h : 10 ∉ line) (rest : List UInt8) :
    lines (line ++ 10 :: rest) = (line ++ [10]) :: lines rest := by
  induction line with
  | nil => rfl
  | cons b line ih =>
    have hb : b ≠ 10 := fun he => h (he ▸ List.mem_cons_self)
    have hline := ih fun hm => h (List.mem_cons_of_mem b hm)
    rw [List.cons_append, lines, if_neg hb, hline, List.cons_append]

/-- What no newline ends is one line, unless it is nothing. -/
theorem lines_of_not_mem {line : List UInt8} (h : 10 ∉ line) (hne : line ≠ []) :
    lines line = [line] := by
  induction line with
  | nil => exact absurd rfl hne
  | cons b line ih =>
    have hb : b ≠ 10 := fun he => h (he ▸ List.mem_cons_self)
    rw [lines, if_neg hb]
    cases line with
    | nil => rfl
    | cons d line => rw [ih (fun hm => h (List.mem_cons_of_mem _ hm)) (List.cons_ne_nil d line)]

/-- Lines that are ended one by one are told apart again. -/
theorem lines_flatMap {α : Type} {f : α → List UInt8} {as : List α} (h : ∀ a ∈ as, 10 ∉ f a) :
    lines (as.flatMap fun a => f a ++ [10]) = as.map fun a => f a ++ [10] := by
  induction as with
  | nil => rfl
  | cons a as ih =>
    obtain ⟨ha, has⟩ := List.forall_mem_cons.1 h
    rw [List.flatMap_cons, List.append_assoc, List.singleton_append, lines_append_newline ha,
      ih has, List.map_cons]

/-- No line goes on behind a newline. -/
theorem count_newline_le_of_mem_lines {bytes line : List UInt8} (h : line ∈ lines bytes) :
    line.count 10 ≤ 1 := by
  induction bytes generalizing line with
  | nil => cases h
  | cons b rest ih =>
    rw [lines] at h
    split at h
    · rename_i hb
      rcases List.mem_cons.1 h with rfl | h
      · rw [hb]
        exact Nat.le_refl 1
      · exact ih h
    · rename_i hb
      split at h
      · rw [List.mem_singleton.1 h, List.count_singleton]
        split <;> simp
      · rename_i first more hrest
        rcases List.mem_cons.1 h with rfl | h
        · rw [List.count_cons_of_ne hb]
          exact ih (hrest ▸ List.mem_cons_self)
        · exact ih (hrest ▸ List.mem_cons_of_mem _ h)

/-- A line without its end, which may be a carriage return and a newline. -/
def body (line : List Char) : List Char :=
  match line.reverse with
  | '\n' :: '\r' :: rest => rest.reverse
  | '\n' :: rest => rest.reverse
  | _ => line

/-- Takes back the cluster before it. -/
def backspace : Char := '\x08'

/-- What is left of a line up to some point. -/
structure Draft where
  /-- Its characters, latest first. -/
  text : List Char := []
  /-- How many bytes a backspace takes back for each of its clusters, latest first. -/
  sizes : List Nat := []
  deriving DecidableEq, Repr

namespace Draft

/-- Enter a cluster. Its size is kept in one byte, so that multiples of 256 are lost. -/
def add (d : Draft) (cluster : List Char) : Draft :=
  ⟨cluster.reverse ++ d.text, Utf8.size cluster % 256 :: d.sizes⟩

/-- Take back the latest cluster, if there is one. What its size says has to be whole characters. -/
def takeBack? (d : Draft) : Option Draft :=
  match d.sizes with
  | [] => some d
  | size :: sizes => (Utf8.cut? d.text size).map fun (_, text) => ⟨text, sizes⟩

/-- Enter a cluster, which may be a backspace. -/
def enter? (d : Draft) (cluster : List Char) : Option Draft :=
  if cluster = [backspace] then d.takeBack? else some (d.add cluster)

end Draft

/-- Carry out the backspaces in a text. -/
def edited? (text : List Char) : Option (List Char) :=
  if text.contains backspace then
    ((Text.clusters text).foldlM Draft.enter? {}).map fun d => d.text.reverse
  else some text

/-- The text that a line enters. -/
def entered? (line : List Char) : Option (List Char) := edited? (body line)

/-- A text without a backspace is entered as it is. -/
theorem edited?_of_not_mem {text : List Char} (h : backspace ∉ text) :
    edited? text = some text := by
  simp [edited?, h]

/-- How the prompt ends. -/
inductive Ending where
  /-- Nothing more is entered. -/
  | finished
  /-- The work failed. -/
  | failed (failure : Failure)
  /-- A backspace would have left a part of a character. -/
  | torn
  deriving DecidableEq, Repr

/-- Inspect lines one by one, up to the first failure. -/
def inspect (c : Config) (out err : Sink) : List (List UInt8) → Sink × Sink × Ending
  | [] => (out, err, .finished)
  | line :: rest =>
    match Utf8.decode? line with
    | none => (out, err, .failed (.prompt .notUtf8))
    | some characters =>
      match entered? characters with
      | none => (out, err, .torn)
      | some text =>
        match Inspection.ofText c text out err with
        | ⟨out, err, .ok _⟩ => inspect c out err rest
        | ⟨out, err, .error failure⟩ => (out, err, .failed failure)

end LoxTokens.Prompt
