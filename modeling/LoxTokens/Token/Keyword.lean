/-!
# Keywords

The reserved words. A word is a keyword only if it is exactly one of the spellings: capitals make
another word. The tag of a keyword is its spelling in capitals.
-/

namespace LoxTokens

/-- A reserved word. -/
inductive Keyword where
  | andWord | classWord | elseWord | falseWord | forWord | funWord | ifWord | nilWord
  | orWord | printWord | returnWord | superWord | thisWord | trueWord | varWord | whileWord
  deriving DecidableEq, Repr

namespace Keyword

/-- Every keyword. -/
def all : List Keyword :=
  [.andWord, .classWord, .elseWord, .falseWord, .forWord, .funWord, .ifWord, .nilWord,
   .orWord, .printWord, .returnWord, .superWord, .thisWord, .trueWord, .varWord, .whileWord]

/-- The characters of a keyword. -/
def spelling : Keyword → List Char
  | .andWord => ['a', 'n', 'd']
  | .classWord => ['c', 'l', 'a', 's', 's']
  | .elseWord => ['e', 'l', 's', 'e']
  | .falseWord => ['f', 'a', 'l', 's', 'e']
  | .forWord => ['f', 'o', 'r']
  | .funWord => ['f', 'u', 'n']
  | .ifWord => ['i', 'f']
  | .nilWord => ['n', 'i', 'l']
  | .orWord => ['o', 'r']
  | .printWord => ['p', 'r', 'i', 'n', 't']
  | .returnWord => ['r', 'e', 't', 'u', 'r', 'n']
  | .superWord => ['s', 'u', 'p', 'e', 'r']
  | .thisWord => ['t', 'h', 'i', 's']
  | .trueWord => ['t', 'r', 'u', 'e']
  | .varWord => ['v', 'a', 'r']
  | .whileWord => ['w', 'h', 'i', 'l', 'e']

/-- The tag of a keyword: its spelling in capitals. -/
def name (k : Keyword) : String := String.ofList (k.spelling.map Char.toUpper)

/-- The keyword with a spelling. -/
def ofSpelling? (text : List Char) : Option Keyword := all.find? (·.spelling == text)

theorem spelling_of_ofSpelling? {text : List Char} {k : Keyword}
    (h : ofSpelling? text = some k) : k.spelling = text := by
  simpa using List.find?_some h

@[simp] theorem ofSpelling?_spelling (k : Keyword) : ofSpelling? k.spelling = some k := by
  cases k <;> rfl

/-- No two keywords share a spelling. -/
theorem spelling_injective {k l : Keyword} (h : k.spelling = l.spelling) : k = l := by
  have hs := ofSpelling?_spelling k
  rw [h, ofSpelling?_spelling] at hs
  exact (Option.some.inj hs).symm

end Keyword

end LoxTokens
