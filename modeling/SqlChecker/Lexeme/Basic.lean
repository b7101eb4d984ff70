import SqlChecker.Token.Basic

/-! # Lexemes

A lexeme is a token without its place: what stands in the source, and what it means. Three of its
forms are faults, each a stretch of source that no statement may hold: a quotation and a comment
that are never closed, and a character that begins nothing. -/
namespace SqlChecker

/-- Why a stretch of source is no piece of a statement. -/
inductive LexicalFault where
  | openQuotation
  | openComment
  | stray (c : Char)
  deriving DecidableEq, Repr

/-- What is said of a fault. -/
def LexicalFault.message : LexicalFault → String
  | openQuotation => "Unterminated string"
  | openComment => "Unterminated block comment"
  | stray c => "Unexpected character: '" ++ String.singleton c ++ "'"

/-- A stretch of source that makes up one token. -/
inductive Lexeme where
  | word (text : List Char)
  | number (text : List Char)
  /-- Content between two quotes. -/
  | quotation (quote : Char) (content : List Char)
  /-- A quote and the content after it, up to the end of its line. -/
  | openQuotation (quote : Char) (content : List Char)
  | operator (op : Operator) (text : List Char)
  | punctuation (p : Punctuation)
  | stray (c : Char)
  /-- The two characters that open a block comment, and all that follows them. -/
  | openComment (body : List Char)
  deriving DecidableEq, Repr

namespace Lexeme

/-- Content as it is written between quotes: a quote inside it is written twice. -/
def doubled (quote : Char) (content : List Char) : List Char :=
  content.flatMap fun c => if c = quote then [c, c] else [c]

/-- The characters a lexeme is made of. -/
def text : Lexeme → List Char
  | word text => text
  | number text => text
  | quotation quote content => quote :: (doubled quote content ++ [quote])
  | openQuotation quote content => quote :: doubled quote content
  | operator _ text => text
  | punctuation p => [p.char]
  | stray c => [c]
  | openComment body => '/' :: '*' :: body

/-- The kind of token a lexeme is. -/
def kind : Lexeme → TokenKind
  | word text => match Keyword.ofWord? text with
    | some k => .keyword k
    | none => .identifier
  | number _ => .number
  | quotation .. => .string
  | openQuotation .. => .fault LexicalFault.openQuotation.message
  | operator op _ => .operator op
  | punctuation p => .punctuation p
  | stray c => .fault (LexicalFault.stray c).message
  | openComment _ => .fault LexicalFault.openComment.message

/-- What a token of this lexeme carries: the content of a quotation, the mere opening of an open
comment, and of anything else the text itself. -/
def value : Lexeme → List Char
  | quotation _ content => content
  | openQuotation _ content => content
  | openComment _ => ['/', '*']
  | x => x.text

/-- Counted as a word of its line. Punctuation is not, nor is a fault other than an open
quotation. -/
def isWord : Lexeme → Bool
  | punctuation _ | stray _ | openComment _ => false
  | _ => true

@[simp] theorem doubled_nil (quote : Char) : doubled quote [] = [] := rfl

theorem doubled_cons (quote c : Char) (content : List Char) :
    doubled quote (c :: content) =
      (if c = quote then [c, c] else [c]) ++ doubled quote content := rfl

end Lexeme
end SqlChecker
