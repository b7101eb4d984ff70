import SqlChecker.Command.Arguments
import SqlChecker.Command.Input
import SqlChecker.Command.Options
import SqlChecker.Command.Session
import SqlChecker.Cursor
import SqlChecker.Diagnostic
import SqlChecker.Json.Basic
import SqlChecker.Json.Quoted
import SqlChecker.Json.Reader
import SqlChecker.Json.Token
import SqlChecker.Lexeme.Basic
import SqlChecker.Lexeme.Quotation
import SqlChecker.Lexeme.Scan
import SqlChecker.Lexeme.Trivia
import SqlChecker.Lexer
import SqlChecker.Main
import SqlChecker.Report.Format
import SqlChecker.Report.Json
import SqlChecker.Report.Plain
import SqlChecker.Settings.Json
import SqlChecker.Syntax.Error
import SqlChecker.Syntax.Goal
import SqlChecker.Syntax.Run
import SqlChecker.Syntax.Step
import SqlChecker.Syntax.Terminal
import SqlChecker.Text.Blank
import SqlChecker.Text.Byte
import SqlChecker.Text.Decimal
import SqlChecker.Text.Line
import SqlChecker.Text.Separated
import SqlChecker.Text.Span
import SqlChecker.Token.Basic
import SqlChecker.Token.Keyword
import SqlChecker.Token.Operator
import SqlChecker.Token.Punctuation
import SqlChecker.Validation
import SqlChecker.Verdict
import SqlChecker.Proofs.Grammar.Basic
import SqlChecker.Proofs.Grammar.Expression
import SqlChecker.Proofs.Matching.Sequence
import SqlChecker.Proofs.Grammar.Statement
import SqlChecker.Proofs.Recognition.Basic
import SqlChecker.Proofs.Matching.Goals
import SqlChecker.Proofs.Recognition.Phrase
import SqlChecker.Proofs.Recognition.Expression
import SqlChecker.Proofs.Recognition.Query
import SqlChecker.Proofs.Recognition.Statement
import SqlChecker.Proofs.Validity
import SqlChecker.Proofs.Grammar.Definition
import SqlChecker.Proofs.Matching.Definitions
import SqlChecker.Proofs.Recognition.Constraint
import SqlChecker.Proofs.Recognition.Definition
import SqlChecker.Proofs.Matching.Lookahead
import SqlChecker.Proofs.Matching.Prefix
import SqlChecker.Proofs.FirstStatement
import SqlChecker.Proofs.Lexing.Coverage
import SqlChecker.Proofs.Lexing.Lexemes
import SqlChecker.Proofs.Lexing.Reading
import SqlChecker.Proofs.Lexing.Spelling
import SqlChecker.Proofs.Lexing.Layout
import SqlChecker.Proofs.Places
import SqlChecker.Proofs.Matching.Completion
import SqlChecker.Proofs.ViablePrefix
import SqlChecker.Proofs.Rejection
import SqlChecker.Proofs.Lexing.Seam
import SqlChecker.Proofs.Lexing.Numbering
import SqlChecker.Proofs.Matching.FirstWord
import SqlChecker.Proofs.Findings
import SqlChecker.Proofs.OptionalTerminator
import SqlChecker.Proofs.TokenKinds
import SqlChecker.Proofs.LayoutIndependence
import SqlChecker.Proofs.QuotedText
import SqlChecker.Proofs.Lexing.Case
import SqlChecker.Proofs.CaseBlindness
import SqlChecker.Proofs.AfterTerminator
import SqlChecker.Proofs.Command.Options
import SqlChecker.Proofs.Channels
import SqlChecker.Proofs.Lexing.Lines
import SqlChecker.Proofs.Lexing.LineIndex
import SqlChecker.Proofs.Lexing.Stepwise
import SqlChecker.Proofs.Marks
import SqlChecker.Proofs.Json.Splitting
import SqlChecker.Proofs.Json.Values
import SqlChecker.Proofs.Json.Report
import SqlChecker.Proofs.ReportLines
import SqlChecker.Proofs.Grammar.Depth
import SqlChecker.Proofs.Balance
import SqlChecker.Proofs.Groups
import SqlChecker.Proofs.Progress
