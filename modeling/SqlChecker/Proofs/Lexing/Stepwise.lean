import SqlChecker.Proofs.Lexing.LineIndex

/-! # A lexer at every moment

A lexer may be asked for its tokens one at a time.  After any number of calls it has yielded so many
of the tokens of the text and has the others still to yield, and it knows where each line begins
that it has reached (`calls_ofText`).  Both follow from what one call does: it takes the first of
the tokens to come (`next_fst`, `drain_next`), and it passes what stands in front of the next one
(`HasPassed.next`).
-/
namespace SqlChecker
namespace Lexer

variable {l m : Lexer} {source passed : List Char} {t : Token}

/-- What so many calls for the next token answer, in order, and the lexer after them. -/
def calls (l : Lexer) : Nat → List (Option Token) × Lexer
  | 0 => ([], l)
  | k + 1 => ((calls l k).1 ++ [(calls l k).2.next.1], (calls l k).2.next.2)

/-- Where a lexer of a text stands after so many calls: at the start before the first one, then
where the token stops that was yielded last, and at the end when there is no further token. -/
def reached (source : List Char) : Nat → Nat
  | 0 => 0
  | k + 1 => match (tokenize source)[k]? with
    | some t => t.span.stop
    | none => Text.byteLength source

/-- A lexer knows where the lines of a text begin, as far as an offset: those with no more newlines
in front of them than there are in front of the offset. -/
def KnowsUpTo (l : Lexer) (source : List Char) (offset : Nat) : Prop :=
  ∃ passed rest, source = passed ++ rest ∧ Text.byteLength passed = offset ∧ ∀ n start,
    l.lineStart? n = some start ↔ n ≤ passed.count '\n' + 1 ∧ Text.LineBegins source n start

/-- The lines that a lexer knows are those of a text: each goes from where it begins up to the next
newline, no other number has a line, and all of them make up the text. -/
structure KnowsLines (l : Lexer) (source : List Char) : Prop where
  line_eq : ∀ n start, l.lineStart? n = some start → ∃ front back, source = front ++ back ∧
    Text.byteLength front = start ∧ Text.line source n = back.takeWhile (· != '\n')
  line_eq_nil : ∀ n, l.lineStart? n = none → Text.line source n = []
  intercalate_eq : ∃ count, (∀ n, (l.lineStart? n).isSome ↔ 1 ≤ n ∧ n ≤ count) ∧
    ['\n'].intercalate ((List.range' 1 count).map (Text.line source)) = source

/-! ### Tokens that are yielded, and tokens to come -/

/-- A call that yields no token passes all that is left. -/
theorem eq_of_next_none (h : l.next = (none, m)) : m = ⟨l.cursor.passAll l.rest, []⟩ := by
  have hsplit : (Trivia.split l.rest).2 = [] :=
    Trivia.split_eq_nil_iff.mpr (next_eq_none_iff.mp (by rw [h]))
  have happ := Trivia.append_split l.rest
  rw [hsplit, List.append_nil] at happ
  simp only [next, hsplit, happ, Lexeme.scan?, Prod.mk.injEq] at h
  exact h.2.symm

/-- A call answers with the first of the tokens to come. -/
theorem next_fst (l : Lexer) : l.next.1 = l.drain.1.head? := by
  rcases hnext : l.next with ⟨- | t, m⟩
  · rw [drain_of_none hnext]
    rfl
  · rw [drain_of_some hnext]
    rfl

/-- Behind a call, the other tokens are to come. -/
theorem drain_next (l : Lexer) : l.next.2.drain.1 = l.drain.1.tail := by
  rcases hnext : l.next with ⟨- | t, m⟩
  · obtain rfl : m = _ := eq_of_next_none hnext
    rw [drain_of_none hnext]
    exact (reads_drain _).eq_nil_of_nil
  · rw [drain_of_some hnext]
    rfl

theorem drain_calls (l : Lexer) (k : Nat) : (l.calls k).2.drain.1 = l.drain.1.drop k := by
  induction k with
  | zero => rfl
  | succ k ih => rw [calls, drain_next, ih, List.tail_drop]

theorem next_calls (l : Lexer) (k : Nat) : (l.calls k).2.next.1 = l.drain.1[k]? := by
  rw [next_fst, drain_calls, List.head?_drop]

theorem answers_calls (l : Lexer) (k : Nat) :
    (l.calls k).1 = (List.range k).map (l.drain.1[·]?) := by
  induction k with
  | zero => rfl
  | succ k ih => rw [calls, ih, next_calls, List.range_succ, List.map_append]; rfl

/-! ### What is passed -/

/-- A lexer of a text stands behind a front part of it. -/
structure HasPassed (l : Lexer) (source passed : List Char) : Prop where
  append_eq : source = passed ++ l.rest
  cursor : l.cursor.HasPassed passed

/-- **One call** leaves the lexer further behind. -/
theorem HasPassed.next (h : l.HasPassed source passed) :
    ∃ more, l.next.2.HasPassed source (passed ++ more) := by
  obtain ⟨rfl, hcursor⟩ := h
  rcases hnext : l.next with ⟨- | t, m⟩
  · obtain rfl : m = _ := eq_of_next_none hnext
    exact ⟨l.rest, (List.append_nil _).symm, hcursor.passAll l.rest⟩
  · obtain ⟨gap, x, -, -, hrest, -, hm⟩ := exists_lexeme_of_next hnext
    refine ⟨gap ++ x.text, by rw [hrest]; simp only [List.append_assoc], ?_⟩
    rw [← List.append_assoc, hm]
    exact (hcursor.passAll gap).passLexeme x

/-- **Any number of calls** leaves it behind some front part. -/
theorem exists_hasPassed_calls (source : List Char) (k : Nat) :
    ∃ passed, ((ofText source).calls k).2.HasPassed source passed := by
  induction k with
  | zero => exact ⟨[], rfl, Cursor.hasPassed_start⟩
  | succ k ih =>
    obtain ⟨passed, h⟩ := ih
    obtain ⟨more, hmore⟩ := h.next
    exact ⟨passed ++ more, hmore⟩

theorem offset_calls (source : List Char) (k : Nat) :
    ((ofText source).calls k).2.cursor.offset = reached source k := by
  cases k with
  | zero => rfl
  | succ k =>
    have hnext := next_calls (ofText source) k
    obtain ⟨passed, happ, hcursor⟩ := exists_hasPassed_calls source k
    rw [calls, reached, tokenize, ← hnext]
    rcases hm : ((ofText source).calls k).2.next with ⟨- | t, m⟩
    · obtain rfl : m = _ := eq_of_next_none hm
      have hbytes := congrArg Text.byteLength happ
      rw [Text.byteLength_append, ← hcursor.offset_eq] at hbytes
      exact (Cursor.offset_passAll _ _).trans hbytes.symm
    · obtain ⟨-, -, -, -, -, -, hoffset⟩ := next_eq_some hm
      exact hoffset

/-- Once a call has yielded no token, nothing is left. -/
theorem rest_calls_of_mem {k : Nat} (h : none ∈ (l.calls k).1) : (l.calls k).2.rest = [] := by
  rw [answers_calls] at h
  obtain ⟨i, hi, hnone⟩ := List.mem_map.mp h
  rw [List.mem_range] at hi
  cases k with
  | zero => omega
  | succ k =>
    have hlength := List.getElem?_eq_none_iff.mp hnone
    have hnext := next_calls l k
    rw [List.getElem?_eq_none (by omega)] at hnext
    rcases hm : (l.calls k).2.next with ⟨found, m⟩
    rw [hm] at hnext
    obtain rfl : found = none := hnext
    rw [calls, hm, eq_of_next_none hm]

/-! ### Lines that are known -/

theorem HasPassed.knowsUpTo (h : l.HasPassed source passed) :
    l.KnowsUpTo source l.cursor.offset := by
  obtain ⟨rfl, hcursor⟩ := h
  refine ⟨passed, l.rest, rfl, hcursor.offset_eq.symm, fun n start => ?_⟩
  rw [← Text.lineBegins_iff_append]
  exact hcursor.lineStart?_eq_some_iff n start

theorem HasPassed.knowsLines (h : l.HasPassed source source) : l.KnowsLines source := by
  obtain ⟨-, -, hsize, hstart⟩ := h
  refine ⟨fun n start hn => ((hstart n start).mp hn).exists_line, ?_, source.count '\n' + 1, ?_, ?_⟩
  · intro n hn
    cases n with
    | zero => rfl
    | succ n =>
      have hle := Array.getElem?_eq_none_iff.mp hn
      rw [hsize, ← Text.length_lines] at hle
      rw [Text.line, Text.lineOf, List.getElem?_eq_none hle, Option.getD_none]
  · intro n
    cases n with
    | zero => exact ⟨fun h => absurd h Bool.false_ne_true, fun h => absurd h.1 (by decide)⟩
    | succ n =>
      rw [lineStart?, Cursor.lineStart?_succ, isSome_getElem?, hsize]
      omega
  · rw [Text.map_line_range']
    exact Text.intercalate_separate '\n' source

/-- **A lexer at every moment.**  After any number of calls it has answered with the tokens of the
text in order, and with none behind the last one; it has the other tokens still to yield; and it
knows the lines that begin in the part of the text that it has passed.  Once it has answered that
there is no further token, the lines that it knows are those of the text. -/
theorem calls_ofText (source : List Char) (k : Nat) :
    ((ofText source).calls k).1 = (List.range k).map ((tokenize source)[·]?) ∧
    ((ofText source).calls k).2.drain.1 = (tokenize source).drop k ∧
    ((ofText source).calls k).2.KnowsUpTo source (reached source k) ∧
    (none ∈ ((ofText source).calls k).1 → ((ofText source).calls k).2.KnowsLines source) := by
  obtain ⟨passed, hpassed⟩ := exists_hasPassed_calls source k
  refine ⟨answers_calls _ k, drain_calls _ k, ?_, fun hnone => ?_⟩
  · rw [← offset_calls]
    exact hpassed.knowsUpTo
  · have hall : source = passed := by
      have happ := hpassed.append_eq
      rwa [rest_calls_of_mem hnone, List.append_nil] at happ
    rw [← hall] at hpassed
    exact hpassed.knowsLines

/-- Of two newlines, one stands in a comment and one behind the last token. -/
theorem calls_comment :
    none ∈ ((ofText "é /*\n*/ )\n".toList).calls 3).1 ∧
    ((ofText "é /*\n*/ )\n".toList).calls 3).1 =
      (List.range 3).map ((tokenize "é /*\n*/ )\n".toList)[·]?) ∧
    ((ofText "é /*\n*/ )\n".toList).calls 3).2.KnowsLines "é /*\n*/ )\n".toList ∧
    ((ofText "é /*\n*/ )\n".toList).calls 3).2.lineStart? 3 = some 11 := by
  have hnone : none ∈ ((ofText "é /*\n*/ )\n".toList).calls 3).1 := by decide +kernel
  obtain ⟨hanswers, -, -, hlines⟩ := calls_ofText "é /*\n*/ )\n".toList 3
  exact ⟨hnone, hanswers, hlines hnone, by decide +kernel⟩

end Lexer
end SqlChecker
