/-!
# Readers

A reader takes a value off the front of a text, or fails. A failing reader takes nothing, so another
one can be tried in its place.
-/

namespace LoxTokens.Toml

/-- Takes a value off the front of a text. -/
abbrev Reader := StateT (List Char) Option

namespace Reader

/-- Take a character that passes a test. -/
def one (p : Char → Bool) : Reader Char
  | c :: cs => if p c then some (c, cs) else none
  | [] => none

/-- Take a given character. -/
def char (c : Char) : Reader Char := one (· == c)

/-- Take a given text. -/
def word (w : String) : Reader Unit := fun cs =>
  if w.toList.isPrefixOf cs then some ((), cs.drop w.toList.length) else none

/-- Take all characters up to the first that fails a test. -/
def run (p : Char → Bool) : Reader (List Char) := fun cs => some (cs.takeWhile p, cs.dropWhile p)

/-- Take what a reader takes, if it takes anything. -/
def maybe {α : Type} (p : Reader α) : Reader (Option α) := fun cs =>
  match p cs with
  | some (a, rest) => some (some a, rest)
  | none => some (none, cs)

/-- Check a condition. -/
def check (b : Bool) : Reader Unit := if b then pure () else failure

/-- Nothing is left. -/
def atEnd : Reader Unit
  | [] => some ((), [])
  | _ :: _ => none

/-- Repeat a reader until it fails, at most a number of times. -/
def upTo {α : Type} (p : Reader α) : Nat → Reader (List α)
  | 0 => pure []
  | n + 1 => do
    match ← maybe p with
    | none => return []
    | some a => return a :: (← upTo p n)

/-- Repeat a reader until it fails. A reader that takes at least one character each time cannot be
repeated more often than there are characters. -/
def many {α : Type} (p : Reader α) : Reader (List α) := fun cs => upTo p cs.length cs

/-- One value or more, with separators between them. -/
def separated {α β : Type} (p : Reader α) (separator : Reader β) : Reader (List α) := do
  return (← p) :: (← many (separator *> p))

/-- The text that a reader takes. -/
def taken {α : Type} (p : Reader α) : Reader (List Char) := fun cs =>
  (p cs).map fun (_, rest) => (cs.take (cs.length - rest.length), rest)

section Laws

variable {α β : Type} {p : Reader α} {cs mid rest : List Char} {a : α}

theorem bind_of_eq (h : p cs = some (a, rest)) (f : α → Reader β) : (p >>= f) cs = f a rest := by
  change (p cs).bind _ = _
  rw [h]
  rfl

theorem bind_of_none (h : p cs = none) (f : α → Reader β) : (p >>= f) cs = none := by
  change (p cs).bind _ = _
  rw [h]
  rfl

theorem map_of_eq (h : p cs = some (a, rest)) (f : α → β) : (f <$> p) cs = some (f a, rest) :=
  bind_of_eq h fun a => pure (f a)

theorem map_of_none (h : p cs = none) (f : α → β) : (f <$> p) cs = none :=
  bind_of_none h fun a => pure (f a)

theorem discard_of_eq (h : p cs = some (a, rest)) : discard p cs = some ((), rest) :=
  map_of_eq h fun _ => ()

theorem discard_of_none (h : p cs = none) : discard p cs = none := map_of_none h fun _ => ()

theorem seqRight_of_eq (h : p cs = some (a, rest)) (q : Reader β) : (p *> q) cs = q rest :=
  bind_of_eq h fun _ => q

theorem seqRight_of_none (h : p cs = none) (q : Reader β) : (p *> q) cs = none :=
  bind_of_none h fun _ => q

theorem seqLeft_of_eq {q : Reader β} {b : β} (h : p cs = some (a, mid))
    (hq : q mid = some (b, rest)) : (p <* q) cs = some (a, rest) :=
  (bind_of_eq h _).trans (bind_of_eq hq _)

theorem seqLeft_of_none (h : p cs = none) (q : Reader β) : (p <* q) cs = none := bind_of_none h _

theorem orElse_of_eq (h : p cs = some (a, rest)) (q : Reader α) :
    (p <|> q) cs = some (a, rest) := by
  change (p cs <|> q cs) = _
  rw [h]
  rfl

/-- Where a reader fails, the next one starts in the same place. -/
theorem orElse_of_none (h : p cs = none) (q : Reader α) : (p <|> q) cs = q cs := by
  change (p cs <|> q cs) = _
  rw [h]
  rfl

theorem maybe_of_eq (h : p cs = some (a, rest)) : maybe p cs = some (some a, rest) := by
  rw [maybe, h]

theorem maybe_of_none (h : p cs = none) : maybe p cs = some (none, cs) := by
  rw [maybe, h]

theorem check_of_eq {b : Bool} (h : b = true) : check b cs = some ((), cs) := by
  rw [h]
  rfl

theorem check_of_eq_false {b : Bool} (h : b = false) : check b cs = none := by
  rw [h]
  rfl

theorem one_cons {q : Char → Bool} {c : Char} (h : q c = true) :
    one q (c :: rest) = some (c, rest) := if_pos h

/-- Nothing is taken from a text whose first character fails the test. -/
theorem one_of_not {q : Char → Bool} (h : ∀ c ∈ cs.head?, q c = false) : one q cs = none := by
  cases cs with
  | nil => rfl
  | cons c cs => exact if_neg (by rw [h c rfl]; decide)

theorem char_cons (c : Char) : char c (c :: rest) = some (c, rest) := one_cons (beq_self_eq_true c)

theorem char_of_ne {c d : Char} (h : c ≠ d) : char d (c :: rest) = none :=
  if_neg fun heq => h (beq_iff_eq.1 heq)

theorem taken_of_none (h : p cs = none) : taken p cs = none := by
  rw [taken, h]
  rfl

theorem taken_of_eq {text : List Char} (h : p (text ++ rest) = some (a, rest)) :
    taken p (text ++ rest) = some (text, rest) := by
  have hlength : (text ++ rest).length - rest.length = text.length := by
    rw [List.length_append, Nat.add_sub_cancel]
  rw [taken, h, Option.map_some]
  dsimp only
  rw [hlength, List.take_left]

/-- What stands first in front of more text. -/
theorem forall_mem_head?_append {P : Char → Prop} {text : List Char} (htext : ∀ c ∈ text.head?, P c)
    (hrest : text = [] → ∀ c ∈ rest.head?, P c) : ∀ c ∈ (text ++ rest).head?, P c := by
  cases text with
  | nil => exact hrest rfl
  | cons c text => exact htext

theorem word_eq_none {w : String} (h : ¬ w.toList <+: cs) : word w cs = none := by
  rw [← List.isPrefixOf_iff_prefix] at h
  exact if_neg h

/-- A run ends where a character fails the test. -/
theorem run_append {q : Char → Bool} {text : List Char} (htext : ∀ c ∈ text, q c = true)
    (hrest : ∀ c ∈ rest.head?, q c = false) : run q (text ++ rest) = some (text, rest) := by
  have htake : rest.takeWhile q = [] ∧ rest.dropWhile q = rest := by
    cases rest with
    | nil => exact ⟨rfl, rfl⟩
    | cons c rest =>
      have hc : ¬ q c = true := by rw [hrest c rfl]; decide
      exact ⟨List.takeWhile_cons_of_neg hc, List.dropWhile_cons_of_neg hc⟩
  rw [run, List.takeWhile_append_of_pos htext, List.dropWhile_append_of_pos htext, htake.1,
    htake.2, List.append_nil]

/-- Of the characters up to the first that fails a test, no more are taken than are asked for. -/
theorem upTo_one (q : Char → Bool) (n : Nat) (cs : List Char) :
    upTo (one q) n cs =
      some ((cs.takeWhile q).take n, (cs.takeWhile q).drop n ++ cs.dropWhile q) := by
  induction n generalizing cs with
  | zero =>
    rw [List.take_zero, List.drop_zero, List.takeWhile_append_dropWhile]
    rfl
  | succ n ih =>
    cases cs with
    | nil => rfl
    | cons c cs =>
      by_cases hc : q c = true
      · rw [List.takeWhile_cons_of_pos hc, List.dropWhile_cons_of_pos hc]
        exact (bind_of_eq (maybe_of_eq (one_cons hc)) _).trans (bind_of_eq (ih cs) _)
      · rw [List.takeWhile_cons_of_neg hc, List.dropWhile_cons_of_neg hc]
        exact bind_of_eq (maybe_of_none (if_neg hc)) _

theorem upTo_one_append {q : Char → Bool} {text : List Char} (htext : ∀ c ∈ text, q c = true)
    (rest : List Char) : upTo (one q) text.length (text ++ rest) = some (text, rest) := by
  rw [upTo_one, List.takeWhile_append_of_pos htext, List.dropWhile_append_of_pos htext,
    List.take_left, List.drop_left, List.takeWhile_append_dropWhile]

/-- Texts one behind the other are read one by one, if each is read in front of what may stand
behind it and nothing more is read behind the last. -/
theorem upTo_flatMap {f : β → List Char} {g : β → α} (Next : List Char → Prop) {n : Nat}
    {xs : List β} (hn : xs.length ≤ n) (hstop : xs.length < n → p rest = none) (hrest : Next rest)
    (hnext : ∀ x ∈ xs, ∀ tail, Next (f x ++ tail))
    (hread : ∀ x ∈ xs, ∀ tail, Next tail → p (f x ++ tail) = some (g x, tail)) :
    upTo p n (xs.flatMap f ++ rest) = some (xs.map g, rest) := by
  induction xs generalizing n with
  | nil =>
    cases n with
    | zero => rfl
    | succ n => exact bind_of_eq (maybe_of_none (hstop (Nat.succ_pos n))) _
  | cons x xs ih =>
    cases n with
    | zero => cases hn
    | succ n =>
      have htail : Next (xs.flatMap f ++ rest) := by
        cases xs with
        | nil => exact hrest
        | cons y xs =>
          rw [List.flatMap_cons, List.append_assoc]
          exact hnext y (by simp) _
      have hfirst := hread x List.mem_cons_self _ htail
      have hmore := ih (Nat.le_of_succ_le_succ hn) (fun h => hstop (Nat.succ_lt_succ h))
        (fun y hy => hnext y (List.mem_cons_of_mem x hy))
        (fun y hy => hread y (List.mem_cons_of_mem x hy))
      rw [List.flatMap_cons, List.append_assoc]
      exact (bind_of_eq (maybe_of_eq hfirst) _).trans (bind_of_eq hmore _)

theorem many_flatMap {f : β → List Char} {g : β → α} (Next : List Char → Prop)
    {xs : List β} (hne : ∀ x ∈ xs, f x ≠ []) (hstop : p rest = none) (hrest : Next rest)
    (hnext : ∀ x ∈ xs, ∀ tail, Next (f x ++ tail))
    (hread : ∀ x ∈ xs, ∀ tail, Next tail → p (f x ++ tail) = some (g x, tail)) :
    many p (xs.flatMap f ++ rest) = some (xs.map g, rest) := by
  refine upTo_flatMap Next ?_ (fun _ => hstop) hrest hnext hread
  induction xs with
  | nil => exact Nat.zero_le _
  | cons x xs ih =>
    have hx := List.length_pos_iff.2 (hne x List.mem_cons_self)
    have hxs := ih (fun y hy => hne y (List.mem_cons_of_mem x hy))
      (fun y hy => hnext y (List.mem_cons_of_mem x hy))
      (fun y hy => hread y (List.mem_cons_of_mem x hy))
    simp only [List.length_append, List.flatMap_cons, List.length_cons] at hxs ⊢
    omega

theorem separated_of_eq {separator : Reader β} {as : List α} (h : p cs = some (a, mid))
    (hmore : many (separator *> p) mid = some (as, rest)) :
    separated p separator cs = some (a :: as, rest) :=
  (bind_of_eq h _).trans (bind_of_eq hmore _)

theorem separated_of_none (h : p cs = none) (separator : Reader β) :
    separated p separator cs = none := bind_of_none h _

end Laws

end Reader

end LoxTokens.Toml
