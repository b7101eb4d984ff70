import SqlChecker.Proofs.Lexing.Reading

/-! # Texts put together

The tokens in front of a place of a text, and those behind it, do not depend on each other, if the
place is where one token has ended and what stands behind it begins as before
(`Reads.exists_append`).  Where the text in front is moved to is told by the cursor alone: tokens
behind it are the same but for so many bytes and lines (`Reads.shift`).  So a text that ends its
last line, and leaves no comment open, can be put in front of any other (`tokenize_append`).
-/
namespace SqlChecker

/-- The stretch so many bytes further on. -/
def Span.shift (bytes : Nat) (s : Span) : Span := ⟨s.start + bytes, s.stop + bytes⟩

/-- The token so many bytes and lines further on. -/
def Token.shift (bytes lines : Nat) (t : Token) : Token :=
  { t with line := t.line + lines, span := t.span.shift bytes }

theorem Token.fault?_shift (bytes lines : Nat) (t : Token) :
    (t.shift bytes lines).fault? = t.fault? := rfl

namespace Cursor

variable {c c' : Cursor} {bytes lines : Nat}

/-- A cursor stands so many bytes and lines behind another, before the same word of its line. -/
structure Behind (bytes lines : Nat) (c c' : Cursor) : Prop where
  offset_eq : c'.offset = c.offset + bytes
  line_eq : c'.line = c.line + lines
  word_eq : c'.word = c.word

theorem Behind.pass (h : Behind bytes lines c c') (char : Char) :
    Behind bytes lines (c.pass char) (c'.pass char) := by
  obtain ⟨ho, hl, hw⟩ := h
  unfold Cursor.pass
  by_cases hc : char = '\n'
  · rw [if_pos hc, if_pos hc]
    exact ⟨by simp only [ho]; omega, by simp only [hl]; omega, rfl⟩
  · rw [if_neg hc, if_neg hc]
    exact ⟨by simp only [ho]; omega, hl, hw⟩

theorem Behind.passAll (h : Behind bytes lines c c') (text : List Char) :
    Behind bytes lines (c.passAll text) (c'.passAll text) := by
  induction text generalizing c c' with
  | nil => exact h
  | cons char text ih => exact ih (h.pass char)

theorem Behind.passLexeme (h : Behind bytes lines c c') (x : Lexeme) :
    Behind bytes lines (c.passLexeme x) (c'.passLexeme x) := by
  obtain ⟨ho, hl, hw⟩ := h.passAll x.text
  unfold Cursor.passLexeme
  by_cases hx : x.isWord = true
  · rw [if_pos hx, if_pos hx]
    exact ⟨ho, hl, congrArg (· + 1) hw⟩
  · rw [if_neg hx, if_neg hx]
    exact ⟨ho, hl, hw⟩

theorem Behind.token_eq (h : Behind bytes lines c c') (x : Lexeme) :
    c'.token x = (c.token x).shift bytes lines := by
  obtain ⟨ho, hl, hw⟩ := h
  simp only [token, Token.shift, Span.shift, ho, hl, hw, Nat.add_right_comm]

/-- Text within a line moves a cursor by its bytes. -/
theorem passAll_of_newline_notMem {text : List Char} (h : '\n' ∉ text) (c : Cursor) :
    c.passAll text = { c with offset := c.offset + Text.byteLength text } := by
  induction text generalizing c with
  | nil => rfl
  | cons char text ih =>
    rw [List.mem_cons, not_or] at h
    rw [passAll_cons, ih h.2, pass, if_neg (Ne.symm h.1), Text.byteLength_cons, ← Nat.add_assoc]

/-- A newline begins a line, and its words. -/
theorem word_passAll_newline (c : Cursor) (text : List Char) :
    (c.passAll (text ++ ['\n'])).word = 1 := by
  rw [passAll_append]
  rfl

end Cursor

/-! ### What may stand behind a token -/

namespace Lexeme

variable {x : Lexeme} {rest rest' : List Char}

/-- How far a lexeme goes is seen from the next character. -/
theorem Precedes.of_head? (h : x.Precedes rest) (hne : rest ≠ [])
    (hhead : rest'.head? = rest.head?) : x.Precedes rest' := by
  cases x with
  | openComment body => exact absurd h.2 hne
  | punctuation p => trivial
  | stray c => exact h
  | _ => simpa only [Precedes, hhead] using h

theorem Precedes.append (h : x.Precedes rest) (hne : rest ≠ []) (more : List Char) :
    x.Precedes (rest ++ more) := by
  refine h.of_head? hne ?_
  obtain ⟨c, rest, rfl⟩ := List.exists_cons_of_ne_nil hne
  rfl

theorem Precedes.text_ne_nil (h : x.Precedes rest) : x.text ≠ [] :=
  text_ne_nil_of_scan? (scan?_of_precedes h)

theorem newline_notMem_doubled {quote : Char} {content : List Char} (hq : quote ≠ '\n')
    (h : '\n' ∉ content) : '\n' ∉ doubled quote content := by
  intro hmem
  obtain ⟨c, hc, hdouble⟩ := List.mem_flatMap.mp hmem
  split at hdouble
  · next he =>
    simp only [List.mem_cons, List.not_mem_nil, or_false, or_self] at hdouble
    exact hq (he.symm.trans hdouble.symm)
  · exact h (List.mem_singleton.mp hdouble ▸ hc)

/-- Only a comment that is not closed goes on behind the end of a line. -/
theorem newline_notMem_text (h : x.Precedes rest)
    (hopen : x.kind ≠ .fault LexicalFault.openComment.message) : '\n' ∉ x.text := by
  intro hmem
  cases x with
  | word text =>
    obtain ⟨⟨c, cs, rfl, hc, hcs⟩, -⟩ := h
    rcases List.mem_cons.mp hmem with rfl | hmem
    · exact absurd hc (by decide)
    · exact absurd (hcs _ hmem) (by decide)
  | number text =>
    obtain ⟨⟨whole, -, hwhole, rfl | ⟨places, hplaces, rfl⟩⟩, -⟩ := h
    · exact absurd (hwhole _ hmem) (by decide)
    · rcases List.mem_append.mp hmem with hmem | hmem
      · exact absurd (hwhole _ hmem) (by decide)
      · rcases List.mem_cons.mp hmem with he | hmem
        · cases he
        · exact absurd (hplaces _ hmem) (by decide)
  | quotation quote content =>
    obtain ⟨hq, hcontent, -⟩ := h
    rcases List.mem_cons.mp hmem with he | hmem
    · exact hq.ne_newline he.symm
    · rcases List.mem_append.mp hmem with hmem | hmem
      · exact newline_notMem_doubled hq.ne_newline hcontent hmem
      · exact hq.ne_newline (List.mem_singleton.mp hmem).symm
  | openQuotation quote content =>
    obtain ⟨hq, hcontent, -⟩ := h
    rcases List.mem_cons.mp hmem with he | hmem
    · exact hq.ne_newline he.symm
    · exact newline_notMem_doubled hq.ne_newline hcontent hmem
  | operator op text =>
    obtain ⟨hop, -⟩ := h
    rcases text with - | ⟨c, - | ⟨d, - | ⟨e, text⟩⟩⟩
    · cases hop
    · obtain rfl := List.mem_singleton.mp hmem
      cases hop
    · have hop : Operator.ofPair? c d = some op := hop
      replace hmem : '\n' ∈ [c, d] := hmem
      unfold Operator.ofPair? at hop
      split at hop <;> first | exact absurd hmem (by decide) | cases hop
    · cases hop
  | punctuation p => cases p <;> exact absurd hmem (by decide)
  | stray c =>
    obtain rfl := List.mem_singleton.mp hmem
    exact absurd h.blank (by decide)
  | openComment body => exact hopen rfl

end Lexeme

/-- Trivia that ends with its line may stand in front of a token. -/
theorem Trivia.mem_gap_of_getLast? {text : List Char} (h : text ∈ tail)
    (hend : text.getLast? = some '\n') : text ∈ gap := by
  rw [tail_eq] at h
  rcases h with h | ⟨front, -, comment, ⟨body, hbody, rfl⟩, rfl⟩
  · exact h
  · have hlast : ('-' :: '-' :: body).getLast? = some '\n' := by
      rwa [List.getLast?_append_of_ne_nil _ (List.cons_ne_nil _ _)] at hend
    have hmem := List.mem_of_getLast? hlast
    simp [hbody] at hmem

/-! ### Readings -/

namespace Reads

variable {c c' : Cursor} {before after ts : List Token} {text gap : List Char}

/-- **Tokens are read alike behind any text**, but for the bytes and lines in front of them. -/
theorem shift {bytes lines : Nat} (h : Reads c ts text) (hc : Cursor.Behind bytes lines c c') :
    Reads c' (ts.map (Token.shift bytes lines)) text := by
  induction h generalizing c' with
  | done h => exact .done h
  | @token c x ts gap rest hgap hx _ ih =>
    have hrest := ih ((hc.passAll gap).passLexeme x)
    rw [List.map_cons, ← (hc.passAll gap).token_eq x]
    exact .token hgap hx hrest

/-- A gap in front of a text is passed. -/
theorem append_gap (hgap : gap ∈ Trivia.gap) (h : Reads (c.passAll gap) ts text) :
    Reads c ts (gap ++ text) := by
  cases h with
  | done h =>
    refine .done ?_
    rw [Trivia.tail, ← Trivia.gap_mul_gap, mul_assoc]
    exact Language.append_mem_mul hgap h
  | @token _ x ts gap' rest hgap' hx hrest =>
    rw [← Cursor.passAll_append] at hrest ⊢
    rw [← List.append_assoc, ← List.append_assoc]
    refine .token ?_ hx hrest
    rw [← Trivia.gap_mul_gap]
    exact Language.append_mem_mul hgap hgap'

/-- **A text is cut between two tokens.**  What is read of the text behind the cut may be read of
another text in its place, if that begins with the same character.  The induction is on the tokens
in front of the cut. -/
theorem exists_append (h : Reads c (before ++ after) text) :
    ∃ c' front back, text = front ++ back ∧ c'.offset = c.offset + Text.byteLength front ∧
      Reads c' after back ∧ ∀ {ts : List Token} {back' : List Char}, back ≠ [] →
        back'.head? = back.head? → Reads c' ts back' → Reads c (before ++ ts) (front ++ back') := by
  induction before generalizing c text with
  | nil => exact ⟨c, [], text, rfl, rfl, h, fun _ _ h => h⟩
  | cons t before ih =>
    cases h with
    | @token _ x _ gap rest hgap hx hrest =>
      obtain ⟨c', front, back, rfl, hoffset, hback, hother⟩ := ih hrest
      refine ⟨c', gap ++ x.text ++ front, back, (List.append_assoc ..).symm, ?_, hback, ?_⟩
      · rw [hoffset, Cursor.offset_passLexeme, Cursor.offset_passAll, Text.byteLength_append,
          Text.byteLength_append]
        omega
      · intro ts back' hne hhead h
        rw [List.append_assoc _ front]
        refine .token hgap (hx.of_head? ?_ ?_) (hother hne hhead h)
        · exact List.append_ne_nil_of_right_ne_nil front hne
        · rw [List.head?_append, List.head?_append, hhead]

/-- **A token is cut out of a text.**  Another lexeme may be read in its place, if that begins with
the same character. -/
theorem exists_token {t : Token} (h : Reads c (before ++ t :: after) text) :
    ∃ (c' : Cursor) (front : List Char) (x : Lexeme) (behind : List Char),
      text = front ++ x.text ++ behind ∧ c'.offset = c.offset + Text.byteLength front ∧
      t = c'.token x ∧ x.Precedes behind ∧ Reads (c'.passLexeme x) after behind ∧
      ∀ {y : Lexeme} {ts : List Token} {rest : List Char}, y.Precedes rest →
        (y.text ++ rest).head? = (x.text ++ behind).head? → Reads (c'.passLexeme y) ts rest →
        Reads c (before ++ c'.token y :: ts) (front ++ y.text ++ rest) := by
  obtain ⟨c', front, back, rfl, hoffset, hback, hother⟩ := exists_append h
  cases hback with
  | @token _ x _ gap behind hgap hx hafter =>
    refine ⟨c'.passAll gap, front ++ gap, x, behind, ?_, ?_, rfl, hx, hafter, ?_⟩
    · simp only [List.append_assoc]
    · rw [Cursor.offset_passAll, hoffset, Text.byteLength_append, Nat.add_assoc]
    · intro y ts rest hy hhead hrest
      have hne : gap ++ x.text ++ behind ≠ [] :=
        List.append_ne_nil_of_left_ne_nil (List.append_ne_nil_of_right_ne_nil gap hx.text_ne_nil) _
      have hheads : (gap ++ y.text ++ rest).head? = (gap ++ x.text ++ behind).head? := by
        rw [List.append_assoc, List.append_assoc, List.head?_append, hhead, ← List.head?_append]
      have hreads := hother hne hheads (.token hgap hy hrest)
      rwa [← List.append_assoc, ← List.append_assoc] at hreads

/-- **A text that ends its last line** is read alike in front of any other text, if it leaves no
comment open.  What is read of the other text begins at the first word of the next line. -/
theorem append (h : Reads c ts text) (hend : text.getLast? = some '\n')
    (hopen : ∀ t ∈ ts, t.kind ≠ .fault LexicalFault.openComment.message) :
    ∃ c' : Cursor, c'.offset = c.offset + Text.byteLength text ∧
      c'.line = c.line + text.count '\n' ∧ c'.word = 1 ∧ ∀ {ts' : List Token} {text' : List Char},
        Reads c' ts' text' → Reads c (ts ++ ts') (text ++ text') := by
  induction h with
  | @done c text htail =>
    have hgap := Trivia.mem_gap_of_getLast? htail hend
    refine ⟨c.passAll text, Cursor.offset_passAll c text, Cursor.line_passAll c text, ?_,
      fun h => append_gap hgap h⟩
    obtain ⟨front, rfl⟩ := List.getLast?_eq_some_iff.mp hend
    exact Cursor.word_passAll_newline c front
  | @token c x ts gap rest hgap hx _ ih =>
    obtain ⟨hopenx, hopents⟩ := List.forall_mem_cons.mp hopen
    -- The newline at the end is not one of the lexeme.
    have hne : rest ≠ [] := by
      rintro rfl
      have hlast : x.text.getLast? = some '\n' := by
        rwa [List.append_nil, List.getLast?_append_of_ne_nil _ hx.text_ne_nil] at hend
      exact Lexeme.newline_notMem_text hx hopenx (List.mem_of_getLast? hlast)
    have hend' : rest.getLast? = some '\n' := by
      rwa [List.getLast?_append_of_ne_nil _ hne] at hend
    obtain ⟨c', hoffset, hline, hword, happend⟩ := ih hend' hopents
    refine ⟨c', ?_, ?_, hword, fun h => ?_⟩
    · rw [hoffset, Cursor.offset_passLexeme, Cursor.offset_passAll, Text.byteLength_append,
        Text.byteLength_append]
      omega
    · rw [hline, Cursor.line_passLexeme, Cursor.line_passAll, List.count_append, List.count_append]
      omega
    · rw [List.append_assoc _ rest]
      exact .token hgap (hx.append hne _) (happend h)

end Reads

/-- **The tokens of a text in two parts**, of which the first ends its last line and leaves no
comment open, are those of the first part and then those of the second, so many bytes and lines
further on. -/
theorem tokenize_append {front : List Char} (hend : front.getLast? = some '\n')
    (hopen : ∀ t ∈ tokenize front, t.kind ≠ .fault LexicalFault.openComment.message)
    (back : List Char) :
    tokenize (front ++ back) = tokenize front ++
      (tokenize back).map (Token.shift (Text.byteLength front) (front.count '\n')) := by
  obtain ⟨c, hoffset, hline, hword, happend⟩ := (reads_tokenize front).append hend hopen
  have hc : Cursor.Behind (Text.byteLength front) (front.count '\n') .start c := by
    exact ⟨hoffset, hline, hword⟩
  exact tokenize_of_reads (happend ((reads_tokenize back).shift hc))

end SqlChecker
