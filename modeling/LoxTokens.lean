import LoxTokens.Text.Class
import LoxTokens.Cursor
import LoxTokens.Token.Basic
import LoxTokens.Binary64.Layout
import LoxTokens.Piece
import LoxTokens.Text.Graphic
import LoxTokens.Text.Mark
import LoxTokens.Text.Range
import LoxTokens.Text.Cluster.Ranges
import LoxTokens.Text.Cluster.Role
import LoxTokens.Text.Cluster.Basic
import LoxTokens.Text.Quoted
import LoxTokens.Diagnostic.Basic
import LoxTokens.Diagnostic.Log
import LoxTokens.LexError
import LoxTokens.Lexer
import LoxTokens.Cause
import LoxTokens.Config.Basic
import LoxTokens.Failure
import LoxTokens.Files.Entry
import LoxTokens.Inspection
import LoxTokens.Toml.Blank
import LoxTokens.Toml.Document
import LoxTokens.CommandLine.Answer
import LoxTokens.Files.Tree
import LoxTokens.Main
import LoxTokens.Lexer.Basic
import LoxTokens.Lexer.Piecewise
import LoxTokens.Proofs.Passage
import LoxTokens.Proofs.Grammar.LongestMatch
import LoxTokens.Proofs.Grammar.Cut
import LoxTokens.Proofs.Places
import LoxTokens.Proofs.Modes.Simulation
import LoxTokens.Proofs.Histories
import LoxTokens.Proofs.Endings
import LoxTokens.Proofs.Boundary
import LoxTokens.Proofs.Shift
import LoxTokens.Proofs.Restart
import LoxTokens.Proofs.Newline
import LoxTokens.Proofs.Writing
import LoxTokens.Proofs.Lookahead
import LoxTokens.Proofs.Gluing
import LoxTokens.Proofs.LineEndings
import LoxTokens.Proofs.Lines
import LoxTokens.Proofs.Limits
import LoxTokens.Proofs.Entries
import LoxTokens.Proofs.EntryLines
import LoxTokens.Proofs.Decimals
import LoxTokens.Proofs.Json.Decoder
import LoxTokens.Proofs.Json.Number
import LoxTokens.Proofs.Json.Decoded
import LoxTokens.Proofs.Json.Listing
import LoxTokens.Proofs.Loading
import LoxTokens.Proofs.FileAnswers
import LoxTokens.Proofs.PromptAnswers
import LoxTokens.Proofs.Precedence
import LoxTokens.Proofs.Opacity
import LoxTokens.Proofs.Literals
import LoxTokens.Proofs.Safety
import LoxTokens.Proofs.Magnitudes
import LoxTokens.Proofs.NumberTexts
import LoxTokens.Proofs.Cursors
import LoxTokens.Proofs.Joins
import LoxTokens.Proofs.LogHistories
import LoxTokens.Proofs.SettingsTexts
import LoxTokens.Proofs.CodeTexts
