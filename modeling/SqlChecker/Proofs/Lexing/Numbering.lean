import SqlChecker.Proofs.Lexing.Seam
import SqlChecker.Proofs.Lexing.Spelling

/-! # How lines and words are counted

The line of a token counts the newlines in front of it, and its word counts the words in front of it
on its line.  A lexer keeps both counts while it passes over the text; at every place they are what
the tokens behind it say (`Reads.placedBehind`).  So of two words the later one has the higher place
(`place_tokenize`).
-/
namespace SqlChecker

/-- Tokens of this kind are counted as words: all but structural characters and the faults other
than an open quotation. -/
def TokenKind.isWord : TokenKind → Bool
  | keyword _ | identifier | number | string | operator _ => true
  | punctuation _ => false
  | fault message => message == LexicalFault.openQuotation.message

/-- The number of words on a line among some tokens. -/
def wordsOnLine (tokens : List Token) (line : Nat) : Nat :=
  tokens.countP fun t => t.kind.isWord && t.line == line

/-- A line and a word are those of a place behind some tokens: none of them is on a later line, and
the word counts those that are words of the same line. -/
structure PlacedBehind (earlier : List Token) (line word : Nat) : Prop where
  line_le : ∀ t ∈ earlier, t.line ≤ line
  word_eq : word = 1 + wordsOnLine earlier line

variable {earlier ts : List Token} {t u : Token} {c : Cursor} {x : Lexeme} {text rest : List Char}

/-! ### Words among tokens -/

theorem wordsOnLine_append (earlier later : List Token) (line : Nat) :
    wordsOnLine (earlier ++ later) line = wordsOnLine earlier line + wordsOnLine later line :=
  List.countP_append

theorem wordsOnLine_cons (h : t.kind.isWord = true) (later : List Token) :
    wordsOnLine (t :: later) t.line = wordsOnLine later t.line + 1 := by
  simp [wordsOnLine, h]

theorem wordsOnLine_singleton_of_not_isWord (h : t.kind.isWord = false) (line : Nat) :
    wordsOnLine [t] line = 0 := by
  simp [wordsOnLine, h]

/-- There are no words on a line behind the last one. -/
theorem wordsOnLine_eq_zero {line : Nat} (h : ∀ t ∈ earlier, t.line < line) :
    wordsOnLine earlier line = 0 := by
  refine List.countP_eq_zero.mpr fun t ht => ?_
  simp [Nat.ne_of_lt (h t ht)]

/-- A token is a word if its lexeme is one. -/
theorem Lexeme.isWord_kind (x : Lexeme) : x.kind.isWord = x.isWord := by
  cases x with
  | word text =>
    rw [Lexeme.kind]
    cases Keyword.ofWord? text <;> rfl
  | stray c => exact beq_false_of_ne (LexicalFault.message_injective.ne (by simp))
  | openComment body => exact beq_false_of_ne (by decide)
  | _ => rfl

/-! ### What a lexer passes -/

namespace PlacedBehind

/-- Only a newline changes the place, and there are no words yet on the line that it begins. -/
theorem pass (h : PlacedBehind earlier c.line c.word) (char : Char) :
    PlacedBehind earlier (c.pass char).line (c.pass char).word := by
  unfold Cursor.pass
  split
  · have hnone := wordsOnLine_eq_zero fun t ht => Nat.lt_succ_of_le (h.line_le t ht)
    exact ⟨fun t ht => Nat.le_succ_of_le (h.line_le t ht), by rw [hnone]⟩
  · exact h

theorem passAll (h : PlacedBehind earlier c.line c.word) (text : List Char) :
    PlacedBehind earlier (c.passAll text).line (c.passAll text).word := by
  induction text generalizing c with
  | nil => exact h
  | cons char text ih => exact ih (h.pass char)

/-- Behind a word comes the next word of its line. -/
theorem append_word (h : PlacedBehind earlier t.line t.word) (hword : t.kind.isWord = true) :
    PlacedBehind (earlier ++ [t]) t.line (t.word + 1) := by
  refine ⟨?_, ?_⟩
  · rw [List.forall_mem_append]
    exact ⟨h.line_le, List.forall_mem_singleton.mpr (Nat.le_refl _)⟩
  · rw [wordsOnLine_append, wordsOnLine_cons hword, h.word_eq]
    rfl

/-- Any other token changes nothing. -/
theorem append_other {line word : Nat} (h : PlacedBehind earlier line word)
    (hother : t.kind.isWord = false) (hline : t.line ≤ line) :
    PlacedBehind (earlier ++ [t]) line word := by
  refine ⟨?_, ?_⟩
  · rw [List.forall_mem_append]
    exact ⟨h.line_le, List.forall_mem_singleton.mpr hline⟩
  · rw [wordsOnLine_append, wordsOnLine_singleton_of_not_isWord hother]
    exact h.word_eq

/-- A lexeme is one of the tokens behind which a lexer is when it has passed it. -/
theorem passLexeme (h : PlacedBehind earlier c.line c.word) (hx : x.Precedes rest) :
    PlacedBehind (earlier ++ [c.token x]) (c.passLexeme x).line (c.passLexeme x).word := by
  have hkind : (c.token x).kind.isWord = x.isWord := x.isWord_kind
  unfold Cursor.passLexeme
  cases hword : x.isWord with
  | true =>
    -- A word stays within its line.
    have hopen : x.kind ≠ .fault LexicalFault.openComment.message := by
      intro hopen
      rw [← x.isWord_kind, hopen] at hword
      cases hword
    rw [if_pos rfl, Cursor.passAll_of_newline_notMem (Lexeme.newline_notMem_text hx hopen)]
    exact append_word (t := c.token x) h (hkind.trans hword)
  | false =>
    rw [if_neg Bool.false_ne_true]
    refine (h.passAll x.text).append_other (hkind.trans hword) ?_
    rw [Cursor.line_passAll]
    exact Nat.le_add_right ..

/-- **A word is in front of all that is placed behind it.** -/
theorem lt_of_isWord {later : List Token} (hword : t.kind.isWord = true)
    (ht : PlacedBehind earlier t.line t.word)
    (hu : PlacedBehind (earlier ++ t :: later) u.line u.word) :
    t.line < u.line ∨ t.line = u.line ∧ t.word < u.word := by
  have hle : t.line ≤ u.line := hu.line_le t (by simp)
  refine (Nat.lt_or_eq_of_le hle).imp_right fun hline => ⟨hline, ?_⟩
  have hu' := hu.word_eq
  rw [← hline, wordsOnLine_append, wordsOnLine_cons hword] at hu'
  have ht' := ht.word_eq
  omega

end PlacedBehind

/-! ### Tokens of a text -/

/-- **Every token is placed behind those in front of it.**  The induction is on what is read, with
the tokens in front of it generalized. -/
theorem Reads.placedBehind (h : Reads c ts text) (hc : PlacedBehind earlier c.line c.word)
    {before after : List Token} (hts : ts = before ++ t :: after) :
    PlacedBehind (earlier ++ before) t.line t.word := by
  induction h generalizing earlier before with
  | done => simp at hts
  | @token c x ts gap rest hgap hx _ ih =>
    have hgap := hc.passAll gap
    cases before with
    | nil =>
      obtain ⟨rfl, rfl⟩ := List.cons.inj hts
      rw [List.append_nil]
      exact hgap
    | cons b before =>
      obtain ⟨rfl, rfl⟩ := List.cons.inj hts
      rw [List.append_cons]
      exact ih (hgap.passLexeme hx) rfl

/-- The words that are read have places in order, each in front of all that is read behind it. -/
theorem Reads.pairwise_place (h : Reads c ts text) (hc : PlacedBehind earlier c.line c.word) :
    ts.Pairwise fun t u => t.kind.isWord = true →
      t.line < u.line ∨ t.line = u.line ∧ t.word < u.word := by
  induction h generalizing earlier with
  | done => exact .nil
  | @token c x ts gap rest _ hx hrest ih =>
    have hat := hc.passAll gap
    have hbehind := hat.passLexeme hx
    refine .cons (fun u hu hword => ?_) (ih hbehind)
    obtain ⟨before, after, rfl⟩ := List.append_of_mem hu
    have hu := hrest.placedBehind hbehind rfl
    rw [← List.append_cons] at hu
    exact PlacedBehind.lt_of_isWord hword hat hu

theorem placedBehind_start : PlacedBehind [] Cursor.start.line Cursor.start.word :=
  ⟨fun _ ht => absurd ht List.not_mem_nil, rfl⟩

/-- **Lines and words are counted.**  The line of a token is one and the number of newlines in front
of it, and its word is one and the number of words in front of it on its line.  So the places of the
words, by line and then by word, are in the order of the text. -/
theorem place_tokenize (source : List Char) :
    (∀ earlier t later, tokenize source = earlier ++ t :: later →
      (∃ front back, source = front ++ back ∧ Text.byteLength front = t.span.start ∧
        t.line = 1 + front.count '\n') ∧
      t.word = 1 + wordsOnLine earlier t.line) ∧
    ((tokenize source).filter fun t => t.kind.isWord).Pairwise fun t u =>
      t.line < u.line ∨ t.line = u.line ∧ t.word < u.word := by
  have hreads := reads_tokenize source
  refine ⟨fun earlier t later h => ⟨?_, ?_⟩, ?_⟩
  · have ht : t ∈ tokenize source := by simp [h]
    obtain ⟨front, x, behind, hsource, -, -, -, hline, hspan⟩ := hreads.exists_lexeme ht
    refine ⟨front, x.text ++ behind, by rw [hsource, List.append_assoc], ?_, hline⟩
    rw [hspan]
    exact (Nat.zero_add _).symm
  · exact (hreads.placedBehind placedBehind_start h).word_eq
  · refine List.pairwise_filter.mpr ((hreads.pairwise_place placedBehind_start).imp ?_)
    exact fun h hword _ => h hword

/-! Structural characters are not counted, and a line begins its words anew. -/
example : (tokenize "a, (b\n'c".toList).map (fun t => (t.line, t.word)) =
    [(1, 1), (1, 2), (1, 2), (1, 2), (2, 1)] := by
  decide +kernel

end SqlChecker
