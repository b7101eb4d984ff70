import SqlChecker.Token.Basic

/-! # Terminals

What the grammar sees of a token. The text of a token matters only for an identifier, and there
only if it is one of two words that have a meaning in a single place without being keywords. -/
namespace SqlChecker

/-- The words among the identifiers that the grammar knows. -/
inductive PlainWord where
  | no
  | action
  | other
  deriving DecidableEq, Repr

/-- The plain word that a text spells, in whatever case. -/
def PlainWord.ofText (text : List Char) : PlainWord :=
  match text.map Char.toUpper with
  | ['N', 'O'] => no
  | ['A', 'C', 'T', 'I', 'O', 'N'] => action
  | _ => other

/-- What the grammar sees of a token. -/
inductive Terminal where
  | keyword (k : Keyword)
  | identifier (w : PlainWord)
  | number
  | string
  | operator (op : Operator)
  | punctuation (p : Punctuation)
  /-- Fits nowhere in a statement. -/
  | fault
  deriving DecidableEq, Repr

/-- What the grammar sees of this token. -/
def Token.terminal (t : Token) : Terminal :=
  match t.kind with
  | .keyword k => .keyword k
  | .identifier => .identifier (PlainWord.ofText t.value.toList)
  | .number => .number
  | .string => .string
  | .operator op => .operator op
  | .punctuation p => .punctuation p
  | .fault _ => .fault

namespace Terminal

/-- An identifier or a keyword: either may serve as a name. -/
def isName : Terminal → Bool
  | identifier _ | keyword _ => true
  | _ => false

/-- An identifier, which unlike a keyword may be an alias or a data type. -/
def isIdentifier : Terminal → Bool
  | identifier _ => true
  | _ => false

/-- An operator of any sort. -/
def isOperator : Terminal → Bool
  | operator _ => true
  | _ => false

end Terminal
end SqlChecker
