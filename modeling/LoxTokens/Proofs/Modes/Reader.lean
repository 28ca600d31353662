import Mathlib.Data.List.Nodup
import LoxTokens.Proofs.Places

/-!
# Modes

A reader of single characters is in code, in a comment or in a string. It looks at one character
and the one behind it, and knows nothing of lexemes. It foretells an error for every character of
no use that it reads in code, and one for a string that it never leaves.
-/

namespace LoxTokens

/-- What a reader of single characters is in. -/
inductive Mode where
  | code
  | comment
  /-- A string, with the text in front of the quote that opened it. -/
  | string (front : List Char)
  deriving DecidableEq

/-- The characters that may be read in code. -/
def InAlphabet (c : Char) : Prop :=
  ('A' ≤ c ∧ c ≤ 'Z') ∨ ('a' ≤ c ∧ c ≤ 'z') ∨ ('0' ≤ c ∧ c ≤ '9') ∨
    c ∈ ['_', ' ', '\r', '\t', '\n', '"', '(', ')', '\x7b', '\x7d', ',', '.', '-', '+', ';', '*',
      '!', '=', '<', '>', '/']

instance (c : Char) : Decidable (InAlphabet c) := inferInstanceAs (Decidable (_ ∨ _ ∨ _ ∨ _))

namespace Mode

/-- The mode behind a character: a quote enters a string and leaves it, two slashes in a row enter
a comment, a newline leaves it. -/
def step (m : Mode) (front : List Char) (c : Char) (cs : List Char) : Mode :=
  match m with
  | code =>
    if c = '"' then string front
    else if c = '/' ∧ cs.head? = some '/' then comment
    else code
  | comment => if c = '\n' then code else comment
  | string opened => if c = '"' then code else string opened

/-- The mode at the end of a text. -/
def behind (m : Mode) (front : List Char) : List Char → Mode
  | [] => m
  | c :: cs => (m.step front c cs).behind (front ++ [c]) cs

/-- A text that ends in a string is in error. -/
def error? (m : Mode) (source : List Char) : Option LexError :=
  match m with
  | string front => some (.unterminatedString (Span.behind front ['"']) (Span.behind source []))
  | _ => none

end Mode

/-- A character that has been read. -/
structure Reading where
  /-- The mode it was read in. -/
  mode : Mode
  /-- The text in front of it. -/
  front : List Char
  /-- The character. -/
  char : Char

/-- A character that is of no use in code is in error there, and only there. -/
def Reading.error? (r : Reading) : Option LexError :=
  if r.mode = .code ∧ ¬ InAlphabet r.char then
    some (.unexpectedCharacter r.char (Span.behind r.front [r.char]))
  else none

/-- The characters of a text one by one. -/
def readings (m : Mode) (front : List Char) : List Char → List Reading
  | [] => []
  | c :: cs => ⟨m, front, c⟩ :: readings (m.step front c cs) (front ++ [c]) cs

/-- The errors that the reader foretells. -/
def predicted (m : Mode) (front text : List Char) : List LexError :=
  (readings m front text).filterMap Reading.error? ++
    ((m.behind front text).error? (front ++ text)).toList

theorem predicted_nil (m : Mode) (front : List Char) :
    predicted m front [] = (m.error? front).toList := by
  rw [predicted, List.append_nil]
  rfl

theorem predicted_cons (m : Mode) (front : List Char) (c : Char) (cs : List Char) :
    predicted m front (c :: cs) =
      (Reading.error? ⟨m, front, c⟩).toList ++
        predicted (m.step front c cs) (front ++ [c]) cs := by
  rw [predicted, predicted, List.append_assoc, List.singleton_append, Mode.behind, readings]
  cases h : Reading.error? ⟨m, front, c⟩ with
  | none => rw [List.filterMap_cons_none h]; rfl
  | some e => rw [List.filterMap_cons_some h]; rfl

/-- Nothing is foretold while the mode stays the same and no character is in error. -/
theorem predicted_append {m : Mode} {text : List Char}
    (h : ∀ front, ∀ c ∈ text, ∀ cs,
      m.step front c cs = m ∧ Reading.error? ⟨m, front, c⟩ = none) (front rest : List Char) :
    predicted m front (text ++ rest) = predicted m (front ++ text) rest := by
  induction text generalizing front with
  | nil => rw [List.nil_append, List.append_nil]
  | cons c cs ih =>
    obtain ⟨hs, he⟩ := h front c List.mem_cons_self (cs ++ rest)
    have hcs := ih (fun f d hd => h f d (List.mem_cons_of_mem c hd)) (front ++ [c])
    rw [List.cons_append, predicted_cons, hs, he, hcs, List.append_assoc]
    rfl

/-- Nothing is foretold in a comment. -/
theorem predicted_comment {body : List Char} (h : '\n' ∉ body) (front rest : List Char) :
    predicted .comment front (body ++ rest) = predicted .comment (front ++ body) rest := by
  refine predicted_append (fun f c hc cs => ⟨?_, rfl⟩) front rest
  have hne : c ≠ '\n' := fun he => h (he ▸ hc)
  exact if_neg hne

/-- Where the line ends, a comment might as well be code. -/
theorem predicted_comment_eq {rest : List Char} (h : rest = [] ∨ ∃ tail, rest = '\n' :: tail)
    (front : List Char) : predicted .comment front rest = predicted .code front rest := by
  rcases h with rfl | ⟨tail, rfl⟩
  · rfl
  · rw [predicted_cons, predicted_cons]
    rfl

/-- Nothing is foretold in a string. -/
theorem predicted_string {body : List Char} (h : '"' ∉ body) (opened front rest : List Char) :
    predicted (.string opened) front (body ++ rest) =
      predicted (.string opened) (front ++ body) rest := by
  refine predicted_append (fun f c hc cs => ⟨?_, rfl⟩) front rest
  have hne : c ≠ '"' := fun he => h (he ▸ hc)
  exact if_neg hne

/-- A quote opens nothing in a comment, nor do slashes in a string. -/
example : Mode.code.behind [] ['/', '/', '"'] = .comment ∧
    Mode.code.behind [] ['"', '/', '/', '"'] = .code := by
  decide

section Readings

variable {m : Mode} {front text : List Char}

/-- What is read stands behind the front. -/
theorem size_le_of_mem_readings {r : Reading} (h : r ∈ readings m front text) :
    Utf8.size front ≤ Utf8.size r.front := by
  induction text generalizing m front with
  | nil => cases h
  | cons c cs ih =>
    rcases List.mem_cons.1 h with rfl | h
    · exact Nat.le_refl _
    · have hle := ih h
      rw [Utf8.size_append] at hle
      omega

/-- Nothing is read twice. -/
theorem pairwise_readings (m : Mode) (front text : List Char) :
    (readings m front text).Pairwise fun a b => Utf8.size a.front < Utf8.size b.front := by
  induction text generalizing m front with
  | nil => exact List.Pairwise.nil
  | cons c cs ih =>
    refine List.Pairwise.cons (fun r hr => ?_) (ih _ _)
    have hle := size_le_of_mem_readings hr
    have hpos := Char.utf8Size_pos c
    rw [Utf8.size_append, Utf8.size_cons] at hle
    show Utf8.size front < Utf8.size r.front
    omega

/-- At one place one character is read. -/
theorem eq_of_mem_readings {r s : Reading} (hr : r ∈ readings m front text)
    (hs : s ∈ readings m front text) (h : Utf8.size r.front = Utf8.size s.front) : r = s := by
  have hnodup : ((readings m front text).map fun r => Utf8.size r.front).Nodup := by
    refine List.pairwise_map.2 ((pairwise_readings m front text).imp ?_)
    intro a b hlt
    exact Nat.ne_of_lt hlt
  exact List.inj_on_of_nodup_map hnodup hr hs h

/-- A string that a text ends in is one from the start, or a quote that is read in code opens it. -/
theorem mem_readings_of_behind_eq_string {opened : List Char}
    (h : m.behind front text = .string opened) :
    m = .string opened ∨ ⟨.code, opened, '"'⟩ ∈ readings m front text := by
  induction text generalizing m front with
  | nil => exact Or.inl h
  | cons c cs ih =>
    rcases ih h with hs | hm
    · cases m with
      | code =>
        rw [Mode.step] at hs
        split at hs
        · rename_i hc
          obtain rfl := Mode.string.inj hs
          rw [hc]
          exact Or.inr List.mem_cons_self
        · split at hs <;> cases hs
      | comment =>
        rw [Mode.step] at hs
        split at hs <;> cases hs
      | string other =>
        rw [Mode.step] at hs
        split at hs
        · cases hs
        · exact Or.inl hs
    · exact Or.inr (List.mem_cons_of_mem _ hm)

end Readings

/-- Only a character that is read in code is in error, and only as one that is unexpected. -/
theorem Reading.error?_eq_some {r : Reading} {e : LexError} (h : r.error? = some e) :
    r.mode = .code ∧ e = .unexpectedCharacter r.char (Span.behind r.front [r.char]) := by
  unfold Reading.error? at h
  split at h
  · rename_i hr
    exact ⟨hr.1, (Option.some.inj h).symm⟩
  · cases h

theorem Mode.error?_eq_some {m : Mode} {source : List Char} {e : LexError}
    (h : m.error? source = some e) :
    ∃ front, m = .string front ∧
      e = .unterminatedString (Span.behind front ['"']) (Span.behind source []) := by
  cases m with
  | code | comment => cases h
  | string front => exact ⟨front, rfl, (Option.some.inj h).symm⟩

/-- Every error stands where a character is read in code. -/
theorem exists_reading_of_mem_predicted {source : List Char} {e : LexError}
    (h : e ∈ predicted .code [] source) :
    ∃ r ∈ readings .code [] source, r.mode = .code ∧ e.start = Utf8.size r.front := by
  rcases List.mem_append.1 h with h | h
  · obtain ⟨r, hr, he⟩ := List.mem_filterMap.1 h
    obtain ⟨hm, rfl⟩ := Reading.error?_eq_some he
    exact ⟨r, hr, hm, rfl⟩
  · obtain ⟨front, hb, rfl⟩ := Mode.error?_eq_some (Option.mem_toList.1 h)
    rcases mem_readings_of_behind_eq_string hb with hc | hr
    · cases hc
    · exact ⟨_, hr, rfl, rfl⟩

/-- The error that a text ends in is the last of those foretold. -/
theorem predicted_eq_of_string {source front : List Char}
    (h : Mode.code.behind [] source = .string front) :
    predicted .code [] source =
      (readings .code [] source).filterMap Reading.error? ++
        [.unterminatedString (Span.behind front ['"']) (Span.behind source [])] := by
  rw [predicted, h]
  rfl

end LoxTokens
