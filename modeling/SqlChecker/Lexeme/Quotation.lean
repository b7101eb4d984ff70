import SqlChecker.Lexeme.Basic

/-! # Quotations

A quotation runs from a quote to the next quote of the same sort, where two quotes in a row stand
for one quote of the content. It does not run past the end of its line. -/
namespace SqlChecker

/-- What follows an opening quote: the content meant, whether a quote closes it, and the text after
the quotation. -/
structure Quotation where
  content : List Char
  closed : Bool
  rest : List Char
  deriving DecidableEq, Repr

namespace Quotation

/-- Puts a character in front of the content. -/
def cons (c : Char) (q : Quotation) : Quotation := { q with content := c :: q.content }

/-- Reads on after an opening quote. -/
def read (quote : Char) : List Char → Quotation
  | [] => ⟨[], false, []⟩
  | [c] => if c = quote then ⟨[], true, []⟩ else if c = '\n' then ⟨[], false, [c]⟩ else
      ⟨[c], false, []⟩
  | c :: d :: rest =>
    if c = quote then
      if d = quote then (read quote rest).cons quote else ⟨[], true, d :: rest⟩
    else if c = '\n' then ⟨[], false, c :: d :: rest⟩
    else (read quote (d :: rest)).cons c

/-- The lexeme that an opening quote begins. -/
def lexeme (quote : Char) (q : Quotation) : Lexeme :=
  if q.closed then .quotation quote q.content else .openQuotation quote q.content

/-- The text read: the content with its quotes doubled, the closing quote if there is one, and the
rest. -/
def text (quote : Char) (q : Quotation) : List Char :=
  Lexeme.doubled quote q.content ++ ((if q.closed then [quote] else []) ++ q.rest)

theorem text_cons (quote c : Char) (q : Quotation) :
    (q.cons c).text quote = (if c = quote then [c, c] else [c]) ++ q.text quote := by
  rcases q with ⟨content, closed, rest⟩
  cases closed <;> simp [text, cons, Lexeme.doubled_cons]

/-- Nothing of the text is lost. -/
theorem text_read (quote : Char) (text : List Char) : (read quote text).text quote = text := by
  fun_induction read quote text with
  | case1 => rfl
  | case2 => simp [Quotation.text]
  | case3 => rfl
  | case4 c hc hn => simp [Quotation.text, Lexeme.doubled_cons, hc]
  | case5 rest ih => simp [text_cons, ih]
  | case6 => simp [Quotation.text]
  | case7 => simp [Quotation.text]
  | case8 c d rest hc hn ih => simp [text_cons, hc, ih]

theorem lexeme_text_append (quote : Char) (text : List Char) :
    ((read quote text).lexeme quote).text ++ (read quote text).rest = quote :: text := by
  have h := text_read quote text
  unfold lexeme
  split <;> simp_all [Quotation.text, Lexeme.text]

end Quotation
end SqlChecker
