import SqlChecker.Lexeme.Quotation

/-! # Reading a lexeme

The lexeme at the start of a text that begins with no trivia. Each form is taken as long as it
goes: a word and a number as far as their characters reach, an operator of two characters before
one of a single character. A number holds at most one point, which need not be followed by a
digit.

The main statement says that a lexeme and the text after it are the text again. -/
namespace SqlChecker.Lexeme

/-- A character that begins a word. -/
def startsWord (c : Char) : Bool := c.isAlpha || c == '_'

/-- A character that goes on with a word. -/
def continuesWord (c : Char) : Bool := c.isAlphanum || c == '_'

/-- Reads on after the first digit of a number. -/
def scanNumber (first : Char) (text : List Char) : Lexeme × List Char :=
  let whole := first :: text.takeWhile Char.isDigit
  match text.dropWhile Char.isDigit with
  | '.' :: rest =>
    (number (whole ++ '.' :: rest.takeWhile Char.isDigit), rest.dropWhile Char.isDigit)
  | rest => (number whole, rest)

/-- Reads on after the first character of an operator. -/
def scanOperator (op : Operator) (first : Char) (text : List Char) : Lexeme × List Char :=
  match text with
  | [] => (operator op [first], [])
  | second :: rest => match Operator.ofPair? first second with
    | some pair => (operator pair [first, second], rest)
    | none => (operator op [first], text)

/-- Reads on after a first character. A block comment is an open one here, since a closed one is
trivia. -/
def scanFrom (first : Char) (text : List Char) : Lexeme × List Char :=
  if startsWord first then
    (word (first :: text.takeWhile continuesWord), text.dropWhile continuesWord)
  else if first.isDigit then scanNumber first text
  else if first = '\'' ∨ first = '"' then
    let q := Quotation.read first text
    (q.lexeme first, q.rest)
  else if first = '/' ∧ text.head? = some '*' then (openComment text.tail, [])
  else match Operator.ofChar? first with
    | some op => scanOperator op first text
    | none => match Punctuation.ofChar? first with
      | some p => (punctuation p, text)
      | none => (stray first, text)

/-- The lexeme at the start of a text, and the text after it. -/
def scan? : List Char → Option (Lexeme × List Char)
  | [] => none
  | first :: text => some (scanFrom first text)

theorem scanNumber_append (first : Char) (text : List Char) :
    (scanNumber first text).1.text ++ (scanNumber first text).2 = first :: text := by
  have h := List.takeWhile_append_dropWhile (p := Char.isDigit) (l := text)
  unfold scanNumber
  split
  · rename_i rest hrest
    rw [hrest] at h
    simp [Lexeme.text, List.takeWhile_append_dropWhile, h]
  · simp [Lexeme.text, h]

theorem scanOperator_append (op : Operator) (first : Char) (text : List Char) :
    (scanOperator op first text).1.text ++ (scanOperator op first text).2 = first :: text := by
  unfold scanOperator
  split
  · rfl
  · split <;> rfl

theorem scanFrom_append (first : Char) (text : List Char) :
    (scanFrom first text).1.text ++ (scanFrom first text).2 = first :: text := by
  unfold scanFrom
  split
  · simp [Lexeme.text, List.takeWhile_append_dropWhile]
  · split
    · exact scanNumber_append first text
    · split
      · exact Quotation.lexeme_text_append first text
      · split
        · rename_i h
          cases text <;> simp_all [Lexeme.text]
        · split
          · exact scanOperator_append _ first text
          · split
            · rename_i h
              simp [Lexeme.text, Punctuation.ofChar?_eq_some_iff.mp h]
            · rfl

/-- Nothing of the text is lost. -/
theorem append_of_scan? {text rest : List Char} {x : Lexeme} (h : scan? text = some (x, rest)) :
    x.text ++ rest = text := by
  cases text with
  | nil => simp [scan?] at h
  | cons first text =>
    have := scanFrom_append first text
    simp only [scan?, Option.some.injEq] at h
    simpa [h] using this

theorem text_ne_nil_of_scan? {text rest : List Char} {x : Lexeme}
    (h : scan? text = some (x, rest)) : x.text ≠ [] := by
  cases text with
  | nil => simp [scan?] at h
  | cons first text =>
    simp only [scan?, scanFrom, scanNumber, scanOperator, Quotation.lexeme, Option.some.injEq] at h
    grind [Lexeme.text]

theorem length_of_scan? {text rest : List Char} {x : Lexeme} (h : scan? text = some (x, rest)) :
    rest.length < text.length := by
  have := List.length_pos_iff.mpr (text_ne_nil_of_scan? h)
  rw [← append_of_scan? h, List.length_append]
  omega

end SqlChecker.Lexeme
