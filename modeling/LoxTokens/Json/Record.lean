import LoxTokens.Binary64.Layout
import LoxTokens.Json.Quoted

/-!
# JSON records

A record is an object whose members are texts and numbers. Alone it is written on one line. An
array of records is written with each record and each member on a line of its own, indented by two
blanks a level, and goes out in many small parts (`flatten_arrayParts`).
-/

namespace LoxTokens.Json

/-- The value of a member. -/
inductive Scalar where
  /-- A string. -/
  | text (s : String)
  /-- A whole number. -/
  | count (n : Nat)
  /-- A double precision number. -/
  | number (x : Binary64)
  deriving DecidableEq, Repr

/-- Names and values of an object, in order. -/
abbrev Record := List (String × Scalar)

/-- Numbers from `1e-5` up to below `1e16` have a point, and a positive exponent has its sign. -/
def numbers : Binary64.Layout := ⟨-5, 15, "+", .even⟩

/-- Write a value. What is no finite number is null. -/
def Scalar.write : Scalar → List Char
  | text s => quoted s
  | count n => Nat.toDigits 10 n
  | number x => (if x.isFinite then numbers.write x else "null").toList

/-- Write an object on one line. -/
def compact (r : Record) : List Char :=
  '\x7b' :: [','].intercalate (r.map fun (name, value) => quoted name ++ ':' :: value.write) ++
    ['\x7d']

/-- Write an object as the element of an array. -/
def element (r : Record) : List Char :=
  if r.isEmpty then "  \x7b\x7d".toList
  else
    "  \x7b\n".toList ++
      ",\n".toList.intercalate (r.map fun (name, value) =>
        "    ".toList ++ quoted name ++ ": ".toList ++ value.write) ++
      "\n  \x7d".toList

/-- Write an array of objects. -/
def array (rs : List Record) : List Char :=
  if rs.isEmpty then ['[', ']']
  else "[\n".toList ++ ",\n".toList.intercalate (rs.map element) ++ "\n]".toList

/-- The parts in which a value is written. -/
def Scalar.parts : Scalar → List (List Char)
  | text s => quotedParts s
  | value => [value.write]

/-- Two blanks a level. -/
def indent (level : Nat) : List (List Char) := List.replicate level [' ', ' ']

/-- The parts in which items are written between brackets, each item on a line of its own. -/
def block (level : Nat) (opening closing : Char) : List (List (List Char)) → List (List Char)
  | [] => [[opening], [closing]]
  | item :: items =>
    [opening] :: ['\n'] :: (indent (level + 1) ++ item) ++
      items.flatMap (fun item => [',', '\n'] :: (indent (level + 1) ++ item)) ++
      ['\n'] :: (indent level ++ [[closing]])

/-- The parts in which a member of an object is written. -/
def memberParts (m : String × Scalar) : List (List Char) :=
  quotedParts m.1 ++ [':', ' '] :: m.2.parts

/-- The parts in which an element of an array is written, behind its indentation. -/
def elementParts (r : Record) : List (List Char) := block 1 '\x7b' '\x7d' (r.map memberParts)

/-- The parts in which an array is written. -/
def arrayParts (rs : List Record) : List (List Char) := block 0 '[' ']' (rs.map elementParts)

theorem Scalar.flatten_parts (value : Scalar) : value.parts.flatten = value.write := by
  cases value with
  | text s => exact flatten_quotedParts s
  | count | number => exact List.append_nil _

/-- Behind the first of several texts stands each of the others behind a separator. -/
theorem intercalate_cons (sep x : List Char) (xs : List (List Char)) :
    sep.intercalate (x :: xs) = x ++ xs.flatMap (sep ++ ·) := by
  induction xs generalizing x with
  | nil => rw [List.intercalate_singleton, List.flatMap_nil, List.append_nil]
  | cons y xs ih =>
    rw [List.intercalate_cons_cons, ih, List.flatMap_cons, List.append_assoc, List.append_assoc]

/-- Items between brackets are separated by commas. -/
theorem flatten_block (level : Nat) (opening closing : Char) {items : List (List (List Char))}
    (h : items ≠ []) :
    (block level opening closing items).flatten =
      opening :: '\n' :: [',', '\n'].intercalate
          (items.map fun item => (indent (level + 1)).flatten ++ item.flatten) ++
        '\n' :: (indent level).flatten ++ [closing] := by
  obtain ⟨item, items, rfl⟩ := List.exists_cons_of_ne_nil h
  have hmore : (items.flatMap fun item => [',', '\n'] :: (indent (level + 1) ++ item)).flatten =
      items.flatMap fun item => [',', '\n'] ++ ((indent (level + 1)).flatten ++ item.flatten) := by
    rw [List.flatten_eq_flatMap, List.flatMap_assoc]
    simp
  rw [List.map_cons, intercalate_cons, List.flatMap_map]
  simp [block, hmore]

theorem flatten_memberParts (m : String × Scalar) :
    (memberParts m).flatten = quoted m.1 ++ ": ".toList ++ m.2.write := by
  simp [memberParts, flatten_quotedParts, Scalar.flatten_parts]

theorem flatten_elementParts (r : Record) :
    [' ', ' '] ++ (elementParts r).flatten = element r := by
  by_cases h : r = []
  · subst h
    rfl
  · have hparts : r.map memberParts ≠ [] := mt List.map_eq_nil_iff.1 h
    rw [elementParts, flatten_block 1 _ _ hparts, List.map_map, element,
      List.isEmpty_eq_false_iff.2 h]
    simp [indent, Function.comp_def, flatten_memberParts]

/-- The parts of an array are all of it in order. -/
theorem flatten_arrayParts (rs : List Record) : (arrayParts rs).flatten = array rs := by
  by_cases h : rs = []
  · subst h
    rfl
  · have hparts : rs.map elementParts ≠ [] := mt List.map_eq_nil_iff.1 h
    have hindent : (indent (0 + 1)).flatten = [' ', ' '] := rfl
    rw [arrayParts, flatten_block 0 _ _ hparts, List.map_map, array, List.isEmpty_eq_false_iff.2 h]
    simp only [Function.comp_def, hindent, flatten_elementParts]
    simp [indent]

end LoxTokens.Json
