import SqlChecker.Lexeme.Basic

/-! # Cursors

A cursor is a place in a source text: how many bytes stand before it, which line it is on, and
which word of that line comes next. It remembers where each line it has reached begins. Moving
past a character changes the line only at a newline, which also starts the words over. -/
namespace SqlChecker

/-- A place in a source text. -/
structure Cursor where
  /-- The bytes before the place. -/
  offset : Nat
  /-- The line, counted from one. -/
  line : Nat
  /-- The number in its line of the next word, counted from one. -/
  word : Nat
  /-- The offsets at which the lines reached so far begin, the first line first. -/
  lineStarts : Array Nat
  deriving DecidableEq, Repr

namespace Cursor

/-- The start of a text. -/
def start : Cursor := ⟨0, 1, 1, #[0]⟩

/-- The place after one more character. -/
def pass (c : Cursor) (char : Char) : Cursor :=
  let offset := c.offset + char.utf8Size
  if char = '\n' then ⟨offset, c.line + 1, 1, c.lineStarts.push offset⟩ else { c with offset }

/-- The place after some more text. -/
def passAll (c : Cursor) (text : List Char) : Cursor := text.foldl pass c

/-- The place after a lexeme, which is counted if it is a word. -/
def passLexeme (c : Cursor) (x : Lexeme) : Cursor :=
  let after := c.passAll x.text
  if x.isWord then { after with word := after.word + 1 } else after

/-- The token that a lexeme is at this place. -/
def token (c : Cursor) (x : Lexeme) : Token where
  kind := x.kind
  value := String.ofList x.value
  line := c.line
  word := c.word
  span := ⟨c.offset, c.offset + Text.byteLength x.text⟩

/-- The offset at which a line begins, counted from one, if the cursor has reached it. -/
def lineStart? (c : Cursor) : Nat → Option Nat
  | 0 => none
  | n + 1 => c.lineStarts[n]?

@[simp] theorem passAll_nil (c : Cursor) : c.passAll [] = c := rfl

@[simp] theorem passAll_cons (c : Cursor) (char : Char) (text : List Char) :
    c.passAll (char :: text) = (c.pass char).passAll text := rfl

@[simp] theorem passAll_append (c : Cursor) (a b : List Char) :
    c.passAll (a ++ b) = (c.passAll a).passAll b :=
  List.foldl_append

theorem offset_passAll (c : Cursor) (text : List Char) :
    (c.passAll text).offset = c.offset + Text.byteLength text := by
  induction text generalizing c with
  | nil => simp
  | cons char text ih =>
    rw [passAll_cons, ih, Text.byteLength_cons, ← Nat.add_assoc]
    unfold pass
    split <;> rfl

theorem line_passAll (c : Cursor) (text : List Char) :
    (c.passAll text).line = c.line + text.count '\n' := by
  induction text generalizing c with
  | nil => simp
  | cons char text ih =>
    rw [passAll_cons, ih, List.count_cons]
    unfold pass
    split
    · simp_all only [beq_self_eq_true, if_true]
      omega
    · simp_all

end Cursor
end SqlChecker
