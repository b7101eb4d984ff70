/-! # Operators

Arithmetic and comparison operators. One of them, inequality, has two spellings, so a spelling
determines its operator but not the other way round. -/
namespace SqlChecker

/-- An arithmetic or comparison operator. -/
inductive Operator where
  | equal | notEqual | less | lessEqual | greater | greaterEqual
  | plus | minus | star | slash | percent | bang
  deriving DecidableEq, Repr

namespace Operator

/-- The operator written as a single character. -/
def ofChar? : Char → Option Operator
  | '=' => some equal
  | '<' => some less
  | '>' => some greater
  | '+' => some plus
  | '-' => some minus
  | '*' => some star
  | '/' => some slash
  | '%' => some percent
  | '!' => some bang
  | _ => none

/-- The operator written as a pair of characters. -/
def ofPair? : Char → Char → Option Operator
  | '<', '>' => some notEqual
  | '!', '=' => some notEqual
  | '<', '=' => some lessEqual
  | '>', '=' => some greaterEqual
  | _, _ => none

/-- The operator with this exact spelling. -/
def ofSpelling? : List Char → Option Operator
  | [c] => ofChar? c
  | [c, d] => ofPair? c d
  | _ => none

/-- A pair begins with a character that is an operator by itself. -/
theorem isSome_ofChar?_of_ofPair? {c d : Char} {op : Operator} (h : ofPair? c d = some op) :
    (ofChar? c).isSome := by
  unfold ofPair? at h
  split at h <;> simp_all [ofChar?]

end Operator
end SqlChecker
