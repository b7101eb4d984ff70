import SqlChecker.Lexer
import SqlChecker.Proofs.Lexing.Lexemes
import SqlChecker.Proofs.Lexing.Coverage

/-! # How a text is read

`Reads` says what the tokens of a text are without a lexer: each is a lexeme that goes as far as it
can, behind a gap, and what is left over at the end is trivia.  A lexer yields just these tokens
(`reads_iff`), so that laws of tokens are inductions over `Reads`, and the tokens of a text are
known as soon as a reading of it is.
-/
namespace SqlChecker

/-- Tokens read a text from a place on. -/
inductive Reads : Cursor → List Token → List Char → Prop where
  | done {c : Cursor} {text : List Char} (h : text ∈ Trivia.tail) : Reads c [] text
  | token {c : Cursor} {x : Lexeme} {ts : List Token} {gap rest : List Char}
      (hgap : gap ∈ Trivia.gap) (hx : x.Precedes rest)
      (hrest : Reads ((c.passAll gap).passLexeme x) ts rest) :
      Reads c ((c.passAll gap).token x :: ts) (gap ++ x.text ++ rest)

/-! ### Steps of a lexer -/

namespace Cursor

theorem offset_passLexeme (c : Cursor) (x : Lexeme) :
    (c.passLexeme x).offset = c.offset + Text.byteLength x.text := by
  rw [passLexeme]
  split <;> exact offset_passAll c x.text

theorem line_passLexeme (c : Cursor) (x : Lexeme) :
    (c.passLexeme x).line = c.line + x.text.count '\n' := by
  rw [passLexeme]
  split <;> exact line_passAll c x.text

end Cursor

/-- A gap is split off where no trivia follows. -/
theorem Trivia.split_append {gap text : List Char} (hgap : gap ∈ Trivia.gap)
    (h : splitPiece? text = none) : split (gap ++ text) = (gap, text) := by
  have hrest : (split (gap ++ text)).2 = text := by
    rw [split_append_of_mem_gap hgap, split_of_none h]
  have happ := append_split (gap ++ text)
  rw [hrest] at happ
  exact Prod.ext (List.append_cancel_right happ) hrest

namespace Lexer

variable {c : Cursor} {x : Lexeme} {gap text rest : List Char}

theorem next_of_precedes (hgap : gap ∈ Trivia.gap) (hx : x.Precedes rest) :
    (Lexer.mk c (gap ++ x.text ++ rest)).next =
      (some ((c.passAll gap).token x), ⟨(c.passAll gap).passLexeme x, rest⟩) := by
  have hsplit := Trivia.split_append hgap (Lexeme.splitPiece?_of_precedes hx)
  rw [next, List.append_assoc, hsplit]
  simp only [Lexeme.scan?_of_precedes hx]

/-- What a lexer passes in a step that yields a token. -/
theorem exists_lexeme_of_next {l m : Lexer} {t : Token} (h : l.next = (some t, m)) :
    ∃ gap x, gap ∈ Trivia.gap ∧ x.Precedes m.rest ∧ l.rest = gap ++ x.text ++ m.rest ∧
      t = (l.cursor.passAll gap).token x ∧ m.cursor = (l.cursor.passAll gap).passLexeme x := by
  unfold next at h
  cases hs : Lexeme.scan? (Trivia.split l.rest).2 with
  | none => simp [hs] at h
  | some found =>
    obtain ⟨x, rest⟩ := found
    simp only [hs, Prod.mk.injEq, Option.some.injEq] at h
    obtain ⟨rfl, rfl⟩ := h
    obtain ⟨htext, hx⟩ := (Lexeme.scan?_eq_some_iff (Trivia.splitPiece?_split l.rest)).mp hs
    have hne : (Trivia.split l.rest).2 ≠ [] := by
      intro hnil
      rw [hnil] at hs
      cases hs
    refine ⟨(Trivia.split l.rest).1, x, (Trivia.split_mem l.rest).2 hne, hx, ?_, rfl, rfl⟩
    rw [List.append_assoc, ← htext, Trivia.append_split]

end Lexer

/-! ### Runs of a lexer -/

variable {c : Cursor} {ts : List Token} {text : List Char}

theorem reads_drain (l : Lexer) : Reads l.cursor l.drain.1 l.rest := by
  fun_induction Lexer.drain l with
  | case1 l stop h => exact .done (Lexer.next_eq_none_iff.mp (by rw [h]))
  | case2 l t m h ih =>
    obtain ⟨gap, x, hgap, hx, hrest, rfl, hcursor⟩ := Lexer.exists_lexeme_of_next h
    rw [hcursor] at ih
    rw [hrest]
    exact .token hgap hx ih

theorem drain_of_reads (h : Reads c ts text) : (Lexer.mk c text).drain.1 = ts := by
  induction h with
  | done h => rw [Lexer.drain_of_none (Prod.ext (Lexer.next_eq_none_iff.mpr h) rfl)]
  | token hgap hx _ ih => rw [Lexer.drain_of_some (Lexer.next_of_precedes hgap hx), ih]

/-- **The tokens of a text are those that read it.** -/
theorem reads_iff : Reads c ts text ↔ (Lexer.mk c text).drain.1 = ts := by
  constructor
  · exact drain_of_reads
  · rintro rfl
    exact reads_drain ⟨c, text⟩

/-- No token is read of nothing. -/
theorem Reads.eq_nil_of_nil (h : Reads c ts []) : ts = [] := by
  rw [reads_iff] at h
  rw [← h, Lexer.drain_of_none (Prod.ext (Lexer.next_eq_none_iff.mpr ?_) rfl)]
  exact Trivia.mem_tail_of_mem_gap Trivia.nil_mem_gap

theorem reads_tokenize (text : List Char) : Reads .start (tokenize text) text :=
  reads_iff.mpr rfl

theorem tokenize_of_reads (h : Reads .start ts text) : tokenize text = ts :=
  reads_iff.mp h

end SqlChecker
