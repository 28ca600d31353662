import LoxTokens.Proofs.Json.Number

/-!
# Arrays of records are decoded

Decoding inverts writing, from the characters of a string up to a whole array of records
(`decode?_array`). Each reader is shown to take exactly what was written for it in front of any rest
that may follow there.
-/

namespace LoxTokens.Json

open Toml (Reader isHexDigit numeralValue digitValue)
open Toml.Reader

/-- What a written value denotes. -/
def Scalar.value : Scalar → Value
  | text s => .string s
  | count n => .number (Nat.toDigits 10 n)
  | number x => if x.isFinite then .number (numbers.write x).toList else .null

theorem Scalar.value_number (x : Binary64) : (number x).value =
    if x.isNaN ∨ x.isInfinite then .null else .number (numbers.write x).toList := by
  rw [value, x.isFinite_eq_not]
  cases x.isNaN <;> cases x.isInfinite <;> rfl

/-- What a written record denotes. -/
def Record.value (r : Record) : Value := .object (r.map fun m => (m.1, m.2.value))

/-- An item starts with a character that is no blank. -/
def StartsItem (text : List Char) : Prop := ∃ c cs, text = c :: cs ∧ Text.isSpace c = false

/-- What stands behind an item. -/
def EndsItem (rest : List Char) : Prop := rest.head? = some ',' ∨ rest.head? = some '\n'

theorem EndsItem.endsNumber {rest : List Char} (h : EndsItem rest) : EndsNumber rest := by
  intro c hc
  obtain h | h := h
  · obtain rfl : ',' = c := Option.some.inj (h.symm.trans hc)
    decide
  · obtain rfl : '\n' = c := Option.some.inj (h.symm.trans hc)
    decide

theorem StartsItem.head?_append {text : List Char} (h : StartsItem text) (rest : List Char) :
    ∀ c ∈ (text ++ rest).head?, Text.isSpace c = false := by
  obtain ⟨c, cs, rfl, hc⟩ := h
  rintro d ⟨⟩
  exact hc

theorem IsNumber.startsItem {text : List Char} (h : IsNumber text) : StartsItem text := by
  obtain ⟨sign, whole, part, power, rfl, rfl | ⟨c, hc, rfl⟩, ⟨hdigits, -⟩, -⟩ := h
  · obtain ⟨c, more, rfl⟩ := List.exists_cons_of_ne_nil hdigits.1
    exact ⟨c, _, rfl, Text.isSpace_of_isDigit (hdigits.2 c List.mem_cons_self)⟩
  · obtain rfl := List.mem_singleton.1 hc
    exact ⟨'-', _, rfl, rfl⟩

theorem Scalar.startsItem_write (v : Scalar) : StartsItem v.write := by
  cases v with
  | text s => exact ⟨'"', _, rfl, rfl⟩
  | count n => exact (isNumber_toDigits n).startsItem
  | number x =>
    rw [write]
    split
    · exact (isNumber_write x).startsItem
    · exact ⟨'n', _, rfl, rfl⟩

namespace Decoder

variable {rest : List Char}

theorem space_append (blanks : List Char) (hblanks : ∀ c ∈ blanks, Text.isSpace c = true)
    (hrest : ∀ c ∈ rest.head?, Text.isSpace c = false) :
    space (blanks ++ rest) = some (blanks, rest) := run_append hblanks hrest

theorem space_cons {c : Char} (hc : Text.isSpace c = false) (rest : List Char) :
    space (c :: rest) = some ([], c :: rest) := by
  refine space_append [] (fun _ h => absurd h List.not_mem_nil) ?_
  rintro d ⟨⟩
  exact hc

/-! Strings. -/

theorem unit_append {text : List Char} (hlength : text.length = 4)
    (htext : ∀ c ∈ text, isHexDigit c = true) (rest : List Char) :
    unit (text ++ rest) = some (numeralValue 16 text, rest) := by
  have hdigits := upTo_one_append htext rest
  rw [hlength] at hdigits
  rw [unit, bind_of_eq hdigits, hlength]
  rfl

/-- A control character is written by its code point. -/
theorem codePoint_control {n : Nat} (h : n < 0x20) (rest : List Char) :
    codePoint (['0', '0', Nat.digitChar (n / 16), Nat.digitChar (n % 16)] ++ rest) =
      some (Char.ofNat n, rest) := by
  have hhigh := Nat.div_lt_of_lt_mul (show n < 16 * 16 by omega)
  have hlow := Nat.mod_lt n (show 16 > 0 by decide)
  have hunit := @unit_append ['0', '0', Nat.digitChar (n / 16), Nat.digitChar (n % 16)] rfl
    (by simp [Toml.isHexDigit_digitChar, hhigh, hlow]; decide) rest
  have hn : numeralValue 16 ['0', '0', Nat.digitChar (n / 16), Nat.digitChar (n % 16)] = n := by
    have hzero : digitValue '0' = 0 := rfl
    simp only [numeralValue, List.foldl_cons, List.foldl_nil, hzero,
      Toml.digitValue_digitChar _ hhigh, Toml.digitValue_digitChar _ hlow]
    omega
  have hvalid : Nat.isValidChar n := Or.inl (by omega)
  rw [codePoint, bind_of_eq hunit, hn, if_neg (by omega),
    bind_of_eq (check_of_eq (decide_eq_true hvalid))]
  rfl

/-- A character is read back from what it is written as. -/
theorem character_escaped (c : Char) (rest : List Char) :
    character (escaped c ++ rest) = some (c, rest) := by
  unfold escaped
  split
  · subst c; rfl
  split
  · subst c; rfl
  split
  · subst c; rfl
  split
  · subst c; rfl
  split
  · subst c; rfl
  split
  · subst c; rfl
  split
  · subst c; rfl
  split
  · rename_i hcontrol
    have hread := codePoint_control hcontrol rest
    rw [Char.ofNat_toNat] at hread
    exact hread
  · rename_i hquote hbackslash _ _ _ _ _ hcontrol
    refine orElse_of_eq (one_cons ?_) _
    simp only [isUnescaped, Bool.and_eq_true, decide_eq_true_eq, bne_iff_ne]
    exact ⟨⟨Nat.le_of_not_lt hcontrol, hquote⟩, hbackslash⟩

theorem escaped_ne_nil (c : Char) : escaped c ≠ [] := by
  unfold escaped
  split_ifs <;> simp

/-- A string is read back from what it is written as. -/
theorem string_quoted (s : String) (rest : List Char) :
    string (quoted s ++ rest) = some (s, rest) := by
  have hread : many character (s.toList.flatMap escaped ++ '"' :: rest) =
      some (s.toList.map id, '"' :: rest) :=
    many_flatMap (fun _ => True) (fun c _ => escaped_ne_nil c) rfl trivial (fun _ _ _ => trivial)
      fun c _ tail _ => character_escaped c tail
  have hquoted : quoted s ++ rest = '"' :: (s.toList.flatMap escaped ++ '"' :: rest) := by
    simp [quoted]
  rw [hquoted, string, map_of_eq (seqLeft_of_eq ((seqRight_of_eq (char_cons '"') _).trans hread)
    (char_cons '"')), List.map_id, String.ofList_toList]

/-! Values of members. -/

theorem value_number {text : List Char} (h : IsNumber text) (hrest : EndsNumber rest)
    (depth : Nat) : value (depth + 1) (text ++ rest) = some (.number text, rest) :=
  orElse_of_eq (map_of_eq (number_append h hrest) _) _

theorem value_string (s : String) (rest : List Char) (depth : Nat) :
    value (depth + 1) (quoted s ++ rest) = some (.string s, rest) := by
  have hnumber : number (quoted s ++ rest) = none := rfl
  rw [value, orElse_of_none (map_of_none hnumber _)]
  exact orElse_of_eq (map_of_eq (string_quoted s rest) _) _

theorem value_null (rest : List Char) (depth : Nat) :
    value (depth + 1) ("null".toList ++ rest) = some (.null, rest) := rfl

/-- The value of a member is read back from what it is written as. -/
theorem value_write (v : Scalar) (hrest : EndsNumber rest) (depth : Nat) :
    value (depth + 1) (v.write ++ rest) = some (v.value, rest) := by
  cases v with
  | text s => exact value_string s rest depth
  | count n => exact value_number (isNumber_toDigits n) hrest depth
  | number x =>
    rw [Scalar.write, Scalar.value]
    split
    · exact value_number (isNumber_write x) hrest depth
    · exact value_null rest depth

/-! Items between brackets. -/

theorem isSpace_of_mem_indent {level : Nat} {c : Char} (h : c ∈ (indent level).flatten) :
    Text.isSpace c = true := by
  obtain ⟨blanks, hblanks, hc⟩ := List.mem_flatten.1 h
  rw [List.eq_of_mem_replicate hblanks] at hc
  simp only [List.mem_cons, List.not_mem_nil, or_false, or_self] at hc
  subst c
  rfl

/-- A line end and the indentation of the next line are blanks. -/
theorem space_newline (level : Nat) (hrest : ∀ c ∈ rest.head?, Text.isSpace c = false) :
    space ('\n' :: ((indent level).flatten ++ rest)) =
      some ('\n' :: (indent level).flatten, rest) := by
  refine space_append ('\n' :: (indent level).flatten) (fun c hc => ?_) hrest
  rcases List.mem_cons.1 hc with rfl | hc
  · rfl
  · exact isSpace_of_mem_indent hc

theorem exists_flatten_block_eq (level : Nat) (opening closing : Char)
    (items : List (List (List Char))) :
    ∃ cs, (block level opening closing items).flatten = opening :: cs := by
  cases items with
  | nil => exact ⟨_, rfl⟩
  | cons item items => exact ⟨_, rfl⟩

section Block

variable {α β : Type} {item : Reader β} {parts : α → List (List Char)} {g : α → β}
  {opening closing : Char}

/-- An item behind a comma, on a line of its own. -/
def nextLine (level : Nat) (text : List Char) : List Char :=
  ',' :: '\n' :: ((indent level).flatten ++ text)

/-- The line of a closing bracket. -/
def lastLine (level : Nat) (closing : Char) : List Char :=
  '\n' :: ((indent level).flatten ++ [closing])

/-- The lines behind the first item. -/
def laterLines (level : Nat) (closing : Char) (texts : List (List Char)) : List Char :=
  texts.flatMap (nextLine (level + 1)) ++ lastLine level closing

theorem flatten_block_cons (level : Nat) (opening closing : Char) (x : α) (xs : List α)
    (rest : List Char) :
    (block level opening closing ((x :: xs).map parts)).flatten ++ rest =
      opening :: '\n' :: ((indent (level + 1)).flatten ++ ((parts x).flatten ++
        (laterLines level closing (xs.map fun y => (parts y).flatten) ++ rest))) := by
  rw [flatten_block level _ _ (by simp), List.map_map, List.map_cons, intercalate_cons,
    List.flatMap_map]
  simp [laterLines, nextLine, lastLine, List.flatMap_map]

theorem endsItem_laterLines (level : Nat) (closing : Char) (texts : List (List Char))
    (rest : List Char) : EndsItem (laterLines level closing texts ++ rest) := by
  cases texts with
  | nil => exact Or.inr rfl
  | cons text texts => exact Or.inl rfl

theorem comma_nextLine (level : Nat) {text : List Char} (h : StartsItem text)
    (rest : List Char) :
    comma (nextLine level text ++ rest) =
      some ('\n' :: (indent level).flatten, text ++ rest) := by
  rw [nextLine, List.cons_append, List.cons_append, List.append_assoc]
  exact (seqRight_of_eq ((seqRight_of_eq (space_cons rfl _) _).trans (char_cons ',')) _).trans
    (space_newline level (h.head?_append rest))

theorem space_lastLine (level : Nat) (hclosing : Text.isSpace closing = false)
    (rest : List Char) :
    space (lastLine level closing ++ rest) =
      some ('\n' :: (indent level).flatten, closing :: rest) := by
  rw [lastLine, List.cons_append, List.append_assoc]
  exact space_newline level (StartsItem.head?_append ⟨closing, [], rfl, hclosing⟩ rest)

/-- There is no comma in front of a closing bracket. -/
theorem comma_lastLine (level : Nat) (hclosing : Text.isSpace closing = false)
    (hcomma : closing ≠ ',') (rest : List Char) :
    comma (lastLine level closing ++ rest) = none := by
  refine seqRight_of_none ((seqRight_of_eq (space_lastLine level hclosing rest) _).trans ?_) _
  refine one_of_not ?_
  rintro c ⟨⟩
  exact beq_false_of_ne hcomma

/-- Behind the first item the others are read, and nothing of the closing bracket. -/
theorem many_laterLines (level : Nat) {xs : List α} (hclosing : Text.isSpace closing = false)
    (hcomma : closing ≠ ',') (hstarts : ∀ x ∈ xs, StartsItem (parts x).flatten)
    (hread : ∀ x ∈ xs, ∀ tail, EndsItem tail →
      item ((parts x).flatten ++ tail) = some (g x, tail)) (rest : List Char) :
    many (comma *> item)
        (laterLines level closing (xs.map fun x => (parts x).flatten) ++ rest) =
      some (xs.map g, lastLine level closing ++ rest) := by
  have hstop := comma_lastLine level hclosing hcomma rest
  rw [laterLines, List.flatMap_map, List.append_assoc]
  refine many_flatMap EndsItem (fun _ _ => List.cons_ne_nil _ _) (seqRight_of_none hstop _)
    (Or.inr rfl) (fun _ _ _ => Or.inl rfl) fun x hx tail htail => ?_
  exact (seqRight_of_eq (comma_nextLine (level + 1) (hstarts x hx) tail) _).trans
    (hread x hx tail htail)

/-- Items between brackets are read back if each is read back in front of what may stand behind it.
Where there are none, none is read from the closing bracket. -/
theorem list_block (level : Nat) {xs : List α} (hclosing : Text.isSpace closing = false)
    (hcomma : closing ≠ ',') (hnone : item (closing :: rest) = none)
    (hstarts : ∀ x ∈ xs, StartsItem (parts x).flatten)
    (hread : ∀ x ∈ xs, ∀ tail, EndsItem tail →
      item ((parts x).flatten ++ tail) = some (g x, tail)) :
    list opening closing item ((block level opening closing (xs.map parts)).flatten ++ rest) =
      some (xs.map g, rest) := by
  cases xs with
  | nil =>
    have hclose := space_cons hclosing rest
    have hopen := (seqRight_of_eq (char_cons opening) space).trans hclose
    have hitems := maybe_of_none (separated_of_none hnone comma)
    exact map_of_eq (seqLeft_of_eq (seqLeft_of_eq ((seqRight_of_eq hopen _).trans hitems) hclose)
      (char_cons closing)) _
  | cons x xs =>
    obtain ⟨hstart, hstarts⟩ := List.forall_mem_cons.1 hstarts
    obtain ⟨hfirst, hread⟩ := List.forall_mem_cons.1 hread
    have hmore := many_laterLines level hclosing hcomma hstarts hread rest
    have hitems := separated_of_eq (hfirst _ (endsItem_laterLines level closing _ rest)) hmore
    have hopen := (seqRight_of_eq (char_cons opening) space).trans
      (space_newline (level + 1) (hstart.head?_append
        (laterLines level closing (xs.map fun y => (parts y).flatten) ++ rest)))
    have hclose := space_lastLine level hclosing rest
    rw [flatten_block_cons]
    exact map_of_eq (seqLeft_of_eq (seqLeft_of_eq ((seqRight_of_eq hopen _).trans
      (maybe_of_eq hitems)) hclose) (char_cons closing)) _

end Block

/-! Records and arrays. -/

/-- A member is read back from what it is written as. -/
theorem member_memberParts (m : String × Scalar) (hrest : EndsItem rest) (depth : Nat) :
    member (value (depth + 1)) ((memberParts m).flatten ++ rest) =
      some ((m.1, m.2.value), rest) := by
  have hname := string_quoted m.1 (':' :: ' ' :: (m.2.write ++ rest))
  have hcolon := seqLeft_of_eq (seqLeft_of_eq hname (space_cons rfl _)) (char_cons ':')
  have hspace := space_append [' '] (List.forall_mem_singleton.2 rfl)
    (m.2.startsItem_write.head?_append rest)
  have hvalue := value_write m.2 hrest.endsNumber depth
  rw [flatten_memberParts, List.append_assoc, List.append_assoc]
  exact (bind_of_eq (seqLeft_of_eq hcolon hspace) _).trans (bind_of_eq hvalue _)

theorem startsItem_memberParts (m : String × Scalar) : StartsItem (memberParts m).flatten := by
  rw [flatten_memberParts]
  exact ⟨'"', _, rfl, rfl⟩

/-- A record is read back from what it is written as. -/
theorem value_elementParts (r : Record) (rest : List Char) (depth : Nat) :
    value (depth + 2) ((elementParts r).flatten ++ rest) = some (r.value, rest) := by
  have hread : list '\x7b' '\x7d' (member (value (depth + 1)))
      ((elementParts r).flatten ++ rest) = some (r.map fun m => (m.1, m.2.value), rest) :=
    list_block 1 rfl (by decide) rfl (fun m _ => startsItem_memberParts m)
      fun m _ _ htail => member_memberParts m htail depth
  obtain ⟨cs, hcs⟩ := exists_flatten_block_eq 1 '\x7b' '\x7d' (r.map memberParts)
  rw [elementParts, hcs, List.cons_append] at hread ⊢
  rw [value, orElse_of_none (map_of_none rfl _), orElse_of_none (map_of_none rfl _),
    orElse_of_none (map_of_none rfl _)]
  exact orElse_of_eq (map_of_eq hread _) _

theorem startsItem_elementParts (r : Record) : StartsItem (elementParts r).flatten := by
  obtain ⟨cs, hcs⟩ := exists_flatten_block_eq 1 '\x7b' '\x7d' (r.map memberParts)
  exact ⟨'\x7b', cs, hcs, rfl⟩

/-- An array is read back from what it is written as. -/
theorem value_arrayParts (rs : List Record) (rest : List Char) (depth : Nat) :
    value (depth + 3) ((arrayParts rs).flatten ++ rest) =
      some (.array (rs.map Record.value), rest) := by
  have hread : list '[' ']' (value (depth + 2)) ((arrayParts rs).flatten ++ rest) =
      some (rs.map Record.value, rest) :=
    list_block 0 rfl (by decide) rfl (fun r _ => startsItem_elementParts r)
      fun r _ tail _ => value_elementParts r tail depth
  obtain ⟨cs, hcs⟩ := exists_flatten_block_eq 0 '[' ']' (rs.map elementParts)
  rw [arrayParts, hcs, List.cons_append] at hread ⊢
  rw [value, orElse_of_none (map_of_none rfl _), orElse_of_none (map_of_none rfl _)]
  exact orElse_of_eq (map_of_eq hread _) _

end Decoder

/-- There are at least the brackets. -/
theorem exists_array_eq (rs : List Record) : ∃ c cs, array rs = '[' :: c :: cs := by
  unfold array
  split
  · exact ⟨']', [], rfl⟩
  · exact ⟨'\n', _, rfl⟩

/-- A written array denotes the array of what its records denote. -/
theorem decode?_array (rs : List Record) :
    decode? (array rs) = some (.array (rs.map Record.value)) := by
  obtain ⟨c, cs, harray⟩ := exists_array_eq rs
  have hread := Decoder.value_arrayParts rs [] cs.length
  rw [flatten_arrayParts, List.append_nil, harray] at hread
  have hspace : Decoder.space ('[' :: c :: cs) = some ([], '[' :: c :: cs) :=
    Decoder.space_cons rfl _
  have hvalue := seqLeft_of_eq ((seqRight_of_eq hspace _).trans hread)
    (show Decoder.space [] = some ([], []) from rfl)
  rw [harray]
  exact congrArg (Option.map Prod.fst) (seqLeft_of_eq hvalue (show atEnd [] = _ from rfl))

end LoxTokens.Json
