import SqlChecker.Text.Span
import SqlChecker.Token.Keyword
import SqlChecker.Token.Operator
import SqlChecker.Token.Punctuation

/-! # Tokens

What the checker reads: the pieces of a source text, each with the place where it stands. A
stretch of source that is no piece of a statement is a token too, of the kind `fault`, so that a
list of tokens accounts for all of its source. -/
namespace SqlChecker

/-- What a token is, apart from its text and its place. -/
inductive TokenKind where
  | keyword (k : Keyword)
  | identifier
  | number
  | string
  | operator (op : Operator)
  | punctuation (p : Punctuation)
  /-- No piece of a statement, for the reason given. -/
  | fault (message : String)
  deriving DecidableEq, Repr

/-- A piece of a source text. -/
structure Token where
  kind : TokenKind
  /-- The text as written; for a string, what it stands for. -/
  value : String
  /-- The line it starts on, counted from one. -/
  line : Nat
  /-- The number of the word it is within its line, or would be if it were one. -/
  word : Nat
  /-- The bytes it occupies. -/
  span : Span
  deriving DecidableEq, Repr

/-- The fault a token reports, if it is one. -/
def Token.fault? (t : Token) : Option String :=
  match t.kind with
  | .fault message => some message
  | _ => none

end SqlChecker
