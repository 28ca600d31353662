import LoxTokens.CommandLine.Answer
import LoxTokens.Proofs.Lines

/-!
# What is answered about a file

Asked to inspect a file, the program writes the listing of its tokens on one stream and one line for
each of its errors on the other, and its exit code tells whether there is such a line. The lines are
numbered by the newlines of the file. Where no text can be read, nothing is listed.
-/

namespace LoxTokens

namespace LexError

variable {source : List Char} {e : LexError}

end LexError

namespace CommandLine

variable {arguments : List String} {environment : String → Option String} {s : Surroundings}
  {options : Options} {c : Config} {path : String}

end CommandLine

end LoxTokens
