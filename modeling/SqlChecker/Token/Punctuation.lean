/-! # Punctuation

The characters that structure a statement. An asterisk is not among them: it is an operator. -/
namespace SqlChecker

/-- A structural character. -/
inductive Punctuation where
  | leftParen | rightParen | comma | semicolon | dot
  deriving DecidableEq, Repr

namespace Punctuation

/-- The character itself. -/
def char : Punctuation → Char
  | leftParen => '('
  | rightParen => ')'
  | comma => ','
  | semicolon => ';'
  | dot => '.'

/-- The punctuation that a character is. -/
def ofChar? : Char → Option Punctuation
  | '(' => some leftParen
  | ')' => some rightParen
  | ',' => some comma
  | ';' => some semicolon
  | '.' => some dot
  | _ => none

theorem ofChar?_eq_some_iff {c : Char} {p : Punctuation} : ofChar? c = some p ↔ c = p.char := by
  constructor
  · intro h
    unfold ofChar? at h
    split at h <;> simp_all [char]
    all_goals subst h; rfl
  · rintro rfl
    cases p <;> rfl

end Punctuation
end SqlChecker
