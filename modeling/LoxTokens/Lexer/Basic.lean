import LoxTokens.Cursor
import LoxTokens.LexError
import LoxTokens.Token.Basic

/-!
# Reading lexemes

A lexer stands in a text behind the lexemes that it has read. The first character of a lexeme says
how to read on: to the next quote, as long as digits follow, over one more character or not at
all. A lexeme becomes a token, is left out, or is recorded as an error.
-/

namespace LoxTokens

/-- A text that is being read. -/
structure Lexer where
  /-- Where reading goes on. -/
  cursor : Cursor
  /-- Where the lexeme starts that is being read. -/
  start : Location := {}
  /-- The errors met so far, the latest first. -/
  met : List LexError := []
  /-- The stream has handed out the end of the text. -/
  finished : Bool := false
  deriving DecidableEq

namespace Lexer

/-- Start reading a text. -/
def ofText (text : List Char) : Lexer := { cursor := Cursor.ofText text }

/-- The errors met so far, in order. -/
def errors (l : Lexer) : List LexError := l.met.reverse

/-- The line on which reading goes on. -/
def line (l : Lexer) : Nat := l.cursor.location.line

/-- The offset at which reading goes on. -/
def position (l : Lexer) : Nat := l.cursor.position

/-- Start a lexeme where reading goes on. -/
def begin (l : Lexer) : Lexer := { l with start := l.cursor.location }

/-- Go on reading elsewhere. -/
def moveTo (l : Lexer) (cursor : Cursor) : Lexer := { l with cursor }

/-- Record an error. -/
def report (l : Lexer) (e : LexError) : Lexer := { l with met := e :: l.met }

/-- The text of the lexeme as far as it has been read. -/
def lexeme (l : Lexer) : List Char := (l.cursor.sliceFrom? l.start.offset).getD []

/-- Where the lexeme stands as far as it has been read. -/
def span (l : Lexer) : Span := Span.between l.start l.cursor.location

/-- The token of the lexeme. -/
def token (l : Lexer) (kind : Kind) (literal : Option Literal) : Token :=
  { kind, lexeme := String.ofList l.lexeme, literal, line := l.line, span := l.span }

/-- The lexeme is a symbol. -/
def mark (l : Lexer) (s : Symbol) : Option Token × Lexer := (some (l.token (.symbol s) none), l)

/-- The lexeme is one of two symbols: the one that ends in an equals sign, if one follows. -/
def operator (l : Lexer) (withEqual alone : Symbol) : Option Token × Lexer :=
  let (found, cursor) := l.cursor.matchChar '='
  (l.moveTo cursor).mark (if found then withEqual else alone)

/-- Behind a slash: a second one makes a comment of it and of all that follows on the line. -/
def slash (l : Lexer) : Option Token × Lexer :=
  let (found, cursor) := l.cursor.matchChar '/'
  if found then (none, l.moveTo (cursor.eatWhile (· != '\n'))) else (l.moveTo cursor).mark .slash

/-- Behind a quote: the text up to the next quote is a string. -/
def string (l : Lexer) : Option Token × Lexer :=
  let l := l.moveTo (l.cursor.eatWhile (· != '"'))
  if l.cursor.atEnd then
    let opened := { l.span with stop := l.start.offset + 1 }
    let here := l.cursor.location
    (none, l.report (.unterminatedString opened (Span.between here here)))
  else
    let l := l.moveTo l.cursor.advance.2
    let value := (Utf8.slice? l.lexeme 1 (Utf8.size l.lexeme - 1)).getD []
    (some (l.token .string (some (.text (String.ofList value)))), l)

/-- Behind a digit: more digits, and a point if a digit follows it. -/
def number (l : Lexer) : Option Token × Lexer :=
  let whole := l.cursor.eatWhile Text.isDigit
  let pointed := whole.current == '.' && Text.isDigit (whole.peek 1)
  let l := l.moveTo (if pointed then whole.advance.2.eatWhile Text.isDigit else whole)
  let value := (Binary64.ofNumeral? l.lexeme).getD Binary64.nan
  (some (l.token .number (some (.number value))), l)

/-- Behind a letter: a whole word, reserved or not. -/
def word (l : Lexer) : Option Token × Lexer :=
  let l := l.moveTo (l.cursor.eatWhile Text.isWordChar)
  (some (l.token (Kind.ofWord l.lexeme) none), l)

/-- Behind a character that starts nothing. -/
def stray (l : Lexer) (c : Char) : Option Token × Lexer :=
  (none, l.report (.unexpectedCharacter c l.span))

/-- Read one lexeme: none if it is no token. -/
def readLexeme (l : Lexer) : Option Token × Lexer :=
  let (c, cursor) := l.cursor.advance
  let l := l.moveTo cursor
  match c with
  | '(' => l.mark .leftParen
  | ')' => l.mark .rightParen
  | '\x7b' => l.mark .leftBrace
  | '\x7d' => l.mark .rightBrace
  | ',' => l.mark .comma
  | '.' => l.mark .dot
  | '-' => l.mark .minus
  | '+' => l.mark .plus
  | ';' => l.mark .semicolon
  | '*' => l.mark .star
  | '!' => l.operator .bangEqual .bang
  | '=' => l.operator .equalEqual .equal
  | '<' => l.operator .lessEqual .less
  | '>' => l.operator .greaterEqual .greater
  | '/' => l.slash
  | '"' => l.string
  | '\n' => (none, l)
  | c =>
    if Text.isBlank c then (none, l)
    else if Text.isDigit c then l.number
    else if Text.isLetter c then l.word
    else l.stray c

end Lexer

end LoxTokens
