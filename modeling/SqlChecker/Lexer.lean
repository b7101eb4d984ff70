import SqlChecker.Cursor
import SqlChecker.Lexeme.Scan
import SqlChecker.Lexeme.Trivia

/-! # The lexer

A lexer yields the tokens of a text one after the other, with the place of each. Before a token
it passes trivia; after the last one it stands at the end of the text. It may be asked at any time
where a line begins that it has reached.

A step that yields a token shortens the text to come, so a lexer yields only finitely many. -/
namespace SqlChecker

/-- A place in a text and the text that follows it. -/
structure Lexer where
  cursor : Cursor
  rest : List Char
  deriving DecidableEq, Repr

namespace Lexer

/-- A lexer at the start of a text. -/
def ofText (text : List Char) : Lexer := ⟨Cursor.start, text⟩

/-- The next token, or none at the end of the text; and the lexer after it. -/
def next (l : Lexer) : Option Token × Lexer :=
  let (trivia, rest) := Trivia.split l.rest
  let cursor := l.cursor.passAll trivia
  match Lexeme.scan? rest with
  | none => (none, ⟨cursor, []⟩)
  | some (x, rest) => (some (cursor.token x), ⟨cursor.passLexeme x, rest⟩)

theorem length_of_next {l m : Lexer} {t : Token} (h : l.next = (some t, m)) :
    m.rest.length < l.rest.length := by
  have hle := Trivia.length_split_le l.rest
  unfold next at h
  cases hs : Lexeme.scan? (Trivia.split l.rest).2 with
  | none => simp [hs] at h
  | some found =>
    obtain ⟨x, rest⟩ := found
    simp only [hs, Prod.mk.injEq, Option.some.injEq] at h
    obtain ⟨-, rfl⟩ := h
    exact Nat.lt_of_lt_of_le (Lexeme.length_of_scan? hs) hle

/-- All tokens to come, and the lexer at the end of the text. -/
def drain (l : Lexer) : List Token × Lexer :=
  match _h : l.next with
  | (none, stop) => ([], stop)
  | (some t, m) => (t :: (drain m).1, (drain m).2)
termination_by l.rest.length
decreasing_by all_goals exact length_of_next _h

theorem drain_of_none {l stop : Lexer} (h : l.next = (none, stop)) : l.drain = ([], stop) := by
  rw [drain]; split <;> simp_all

theorem drain_of_some {l m : Lexer} {t : Token} (h : l.next = (some t, m)) :
    l.drain = (t :: m.drain.1, m.drain.2) := by
  rw [drain]; split <;> simp_all

/-- Where a line begins, counted from one, if the lexer has reached it. -/
def lineStart? (l : Lexer) (line : Nat) : Option Nat := l.cursor.lineStart? line

end Lexer

/-- The tokens of a text. -/
def tokenize (text : List Char) : List Token := (Lexer.ofText text).drain.1

end SqlChecker
