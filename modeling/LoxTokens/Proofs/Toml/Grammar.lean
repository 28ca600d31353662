import LoxTokens.Toml.Value

/-!
# Texts of settings files

Which texts say that names have values, as far as a file has assignments at its top level and these
have truth values, whole decimal numbers and strings between double quotes. This is the grammar of
TOML 1.0 for such files, in whatever layout: nothing here depends on how a text is read.
-/

namespace LoxTokens.Toml

/-- Spaces and tabs, or nothing. -/
def IsBlanks (text : List Char) : Prop := ∀ c ∈ text, c = ' ' ∨ c = '\t'

/-- A control character, save the tab. -/
def IsControl (c : Char) : Prop := c.toNat < 0x20 ∧ c ≠ '\t' ∨ c.toNat = 0x7F

instance : DecidablePred IsControl := fun _ => inferInstanceAs (Decidable (_ ∨ _))

/-- A comment, or nothing. -/
def IsRemark (text : List Char) : Prop :=
  text = [] ∨ ∃ body, text = '#' :: body ∧ ∀ c ∈ body, ¬ IsControl c

/-- The end of a line. -/
def IsLineEnd (text : List Char) : Prop := text = ['\n'] ∨ text = ['\r', '\n']

/-! Strings. -/

/-- The characters that a letter behind a backslash stands for. -/
def shortEscapes : List (Char × Char) :=
  [('b', '\x08'), ('t', '\t'), ('n', '\n'), ('f', '\x0c'), ('r', '\r'), ('"', '"'), ('\\', '\\')]

/-- The hexadecimal digits of a code point in either case, with zeros in front of them. -/
def CodePointText (size : Nat) (c : Char) (text : List Char) : Prop :=
  text.length = size ∧ text.map Char.toLower = (Nat.toDigits 16 c.toNat).leftpad size '0'

/-- What a character is written as between double quotes. -/
inductive CharText : Char → List Char → Prop where
  /-- Itself, if it may stand there. -/
  | plain {c : Char} (hcontrol : ¬ IsControl c) (hquote : c ≠ '"') (hbackslash : c ≠ '\\') :
      CharText c [c]
  /-- A backslash and a letter. -/
  | short {letter c : Char} (h : (letter, c) ∈ shortEscapes) : CharText c ['\\', letter]
  /-- Its code point in four digits. -/
  | four {c : Char} {text : List Char} (h : CodePointText 4 c text) :
      CharText c ('\\' :: 'u' :: text)
  /-- Its code point in eight digits. -/
  | eight {c : Char} {text : List Char} (h : CodePointText 8 c text) :
      CharText c ('\\' :: 'U' :: text)

/-- A string between double quotes, each of its characters written in some way. -/
def StringText (s : String) (text : List Char) : Prop :=
  ∃ parts : List (Char × List Char), (∀ p ∈ parts, CharText p.1 p.2) ∧
    s.toList = parts.map Prod.fst ∧ text = '"' :: (parts.flatMap Prod.snd ++ ['"'])

/-! Numbers. -/

/-- The decimal digits of a number. Any but the first may have an underscore in front of it. -/
def DigitsText (n : Nat) (text : List Char) : Prop :=
  ∃ (first : Char) (parts : List (Char × List Char)),
    (∀ p ∈ parts, p.2 = [p.1] ∨ p.2 = ['_', p.1]) ∧
    Nat.toDigits 10 n = first :: parts.map Prod.fst ∧ text = first :: parts.flatMap Prod.snd

/-- A whole number, with or without a sign. -/
inductive IntegerText : Int → List Char → Prop where
  | unsigned {n : Nat} {text : List Char} (h : DigitsText n text) : IntegerText n text
  | plus {n : Nat} {text : List Char} (h : DigitsText n text) : IntegerText n ('+' :: text)
  | minus {n : Nat} {text : List Char} (h : DigitsText n text) : IntegerText (-n) ('-' :: text)

/-! Assignments. -/

/-- The name of a truth value. -/
def truthName : Bool → String
  | true => "true"
  | false => "false"

/-- A truth value, a whole number of sixty-four bits, or a string. -/
inductive ScalarText : Value → List Char → Prop where
  | truth (b : Bool) : ScalarText (.boolean b) (truthName b).toList
  | integer {n : Int} {text : List Char} (h : IntegerText n text)
      (hleast : Int64.minValue.toInt ≤ n) (hgreatest : n ≤ Int64.maxValue.toInt) :
      ScalarText (.integer n) text
  | string {s : String} {text : List Char} (h : StringText s text) : ScalarText (.string s) text

/-- A name, bare or between double quotes. -/
inductive NameText : String → List Char → Prop where
  | bare {name : String} (hne : name.toList ≠ [])
      (h : ∀ c ∈ name.toList, c.isAlphanum = true ∨ c = '_' ∨ c = '-') :
      NameText name name.toList
  | quoted {name : String} {text : List Char} (h : StringText name text) : NameText name text

/-- A line without its end: it says nothing, or that a name has a value. -/
inductive LineText : Option (String × Value) → List Char → Prop where
  | empty {blanks remark : List Char} (hblanks : IsBlanks blanks) (hremark : IsRemark remark) :
      LineText none (blanks ++ remark)
  | assignment {name : String} {v : Value} {before key left right text after remark : List Char}
      (hbefore : IsBlanks before) (hkey : NameText name key) (hleft : IsBlanks left)
      (hright : IsBlanks right) (htext : ScalarText v text) (hafter : IsBlanks after)
      (hremark : IsRemark remark) :
      LineText (some (name, v))
        (before ++ (key ++ (left ++ '=' :: (right ++ (text ++ (after ++ remark))))))

/-- A document is made of lines. -/
inductive DocumentText : Entries → List Char → Prop where
  | last {said : Option (String × Value)} {text : List Char} (h : LineText said text) :
      DocumentText said.toList text
  | line {said : Option (String × Value)} {entries : Entries} {text ending rest : List Char}
      (h : LineText said text) (hending : IsLineEnd ending) (hrest : DocumentText entries rest) :
      DocumentText (said.toList ++ entries) (text ++ (ending ++ rest))

end LoxTokens.Toml
