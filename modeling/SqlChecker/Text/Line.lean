import SqlChecker.Text.Separated

/-! # Lines of a text

A newline ends a line, so a text has one line more than it has newlines and an empty text has one
empty line. Other characters, carriage returns included, belong to their line. -/
namespace SqlChecker.Text

/-- The lines of a text, without the newlines between them. -/
def lines (text : List Char) : List (List Char) := separate '\n' text

/-- The line with a number, counted from one; empty for a number that names no line. -/
def lineOf (lines : List (List Char)) : Nat → List Char
  | 0 => []
  | n + 1 => lines[n]?.getD []

/-- Line `n` of a text. -/
def line (text : List Char) (n : Nat) : List Char := lineOf (lines text) n

theorem length_lines (text : List Char) : (lines text).length = text.count '\n' + 1 :=
  length_separate '\n' text

end SqlChecker.Text
