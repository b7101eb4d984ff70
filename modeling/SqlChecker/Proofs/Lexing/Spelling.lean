import SqlChecker.Proofs.Lexing.Reading

/-! # What a token is spelled like

The kind of a token says what stands in the text where the token is, what the token carries of it,
and what does not follow.  The rule is written for each kind of token by itself: a keyword is its
spelling in some case and not part of a longer word, a number takes all digits and its point, a
quotation ends with a quote that is not doubled, an operator of a single character does not go on
with a second one, and so on.
-/
namespace SqlChecker

/-- What a fault requires of the text it covers, of its value, and of the text behind it. -/
def LexicalFault.Covers (text value behind : List Char) : LexicalFault → Prop
  | openQuotation => ∃ quote, Lexeme.IsQuote quote ∧ text = quote :: Lexeme.doubled quote value ∧
      '\n' ∉ value ∧ ∀ c ∈ behind.head?, c = '\n'
  | openComment => (∃ body, text = '/' :: '*' :: body ∧ ¬ ['*', '/'] <:+: body) ∧
      value = ['/', '*'] ∧ behind = []
  | stray c => Lexeme.IsStray c ∧ text = [c] ∧ value = text

/-- What a kind of token requires of the text it covers, of its value, and of the text behind it. -/
def TokenKind.Covers (text value behind : List Char) : TokenKind → Prop
  | keyword k => text.map Char.toUpper = k.spelling.toList ∧ Lexeme.IsWord text ∧
      (∀ c ∈ behind.head?, ¬ (c.isAlphanum = true ∨ c = '_')) ∧ value = text
  | identifier => (∀ k : Keyword, text.map Char.toUpper ≠ k.spelling.toList) ∧
      Lexeme.IsWord text ∧ (∀ c ∈ behind.head?, ¬ (c.isAlphanum = true ∨ c = '_')) ∧ value = text
  | number => Lexeme.IsNumeral text ∧
      (∀ c ∈ behind.head?, c.isDigit = false ∧ ('.' ∉ text → c ≠ '.')) ∧ value = text
  | string => ∃ quote, Lexeme.IsQuote quote ∧
      text = quote :: (Lexeme.doubled quote value ++ [quote]) ∧ '\n' ∉ value ∧
      behind.head? ≠ some quote
  | operator op => Operator.ofSpelling? text = some op ∧
      (∀ c, text = [c] → ∀ d ∈ behind.head?,
        Operator.ofPair? c d = none ∧ ¬ (c = '-' ∧ d = '-') ∧ ¬ (c = '/' ∧ d = '*')) ∧ value = text
  | punctuation p => text = [p.char] ∧ value = text
  | fault message => ∃ f : LexicalFault, message = f.message ∧ f.Covers text value behind

/-! ### Lexemes and their kinds -/

theorem Lexeme.covers_of_precedes {x : Lexeme} {behind : List Char} (h : x.Precedes behind) :
    x.kind.Covers x.text x.value behind := by
  cases x with
  | word text =>
    obtain ⟨hword, hbehind⟩ := h
    rw [Lexeme.kind]
    cases hk : Keyword.ofWord? text with
    | some k => exact ⟨Keyword.ofWord?_eq_some_iff.mp hk, hword, hbehind, rfl⟩
    | none =>
      refine ⟨fun k hspelling => ?_, hword, hbehind, rfl⟩
      have hfound : Keyword.ofWord? text = some k := Keyword.ofWord?_eq_some_iff.mpr hspelling
      rw [hk] at hfound
      cases hfound
  | number text => exact ⟨h.1, h.2, rfl⟩
  | quotation quote content => exact ⟨quote, h.1, rfl, h.2⟩
  | openQuotation quote content => exact ⟨.openQuotation, rfl, quote, h.1, rfl, h.2⟩
  | operator op text => exact ⟨h.1, h.2, rfl⟩
  | punctuation p => exact ⟨rfl, rfl⟩
  | stray c => exact ⟨.stray c, rfl, h, rfl, rfl⟩
  | openComment body => exact ⟨.openComment, rfl, ⟨body, rfl, h.1⟩, rfl, h.2⟩

/-! ### Tokens and their lexemes -/

/-- A token is the lexeme that stands where its span says, at the place it names. -/
theorem Reads.exists_lexeme {c : Cursor} {ts : List Token} {text : List Char}
    (h : Reads c ts text) {t : Token} (ht : t ∈ ts) :
    ∃ front x behind, text = front ++ Lexeme.text x ++ behind ∧ x.Precedes behind ∧
      t.kind = x.kind ∧ t.value = String.ofList x.value ∧
      t.line = c.line + front.count '\n' ∧
      t.span = ⟨c.offset + Text.byteLength front,
        c.offset + Text.byteLength (front ++ x.text)⟩ := by
  induction h with
  | done => cases ht
  | @token c y ts gap rest hgap hy _ ih =>
    rcases List.mem_cons.mp ht with rfl | ht
    · refine ⟨gap, y, rest, rfl, hy, rfl, rfl, Cursor.line_passAll c gap, ?_⟩
      rw [Cursor.token, Cursor.offset_passAll, Text.byteLength_append, Nat.add_assoc]
    · obtain ⟨front, x, behind, rfl, hx, hkind, hvalue, hline, hspan⟩ := ih ht
      refine ⟨gap ++ y.text ++ front, x, behind, by simp, hx, hkind, hvalue, ?_, ?_⟩
      · rw [hline, Cursor.line_passLexeme, Cursor.line_passAll]
        simp only [List.count_append, Nat.add_assoc]
      · rw [hspan, Cursor.offset_passLexeme, Cursor.offset_passAll]
        simp only [Text.byteLength_append, Nat.add_assoc]

/-- **Every token is the right lexeme, taken maximally.** -/
theorem exists_covers_of_mem_tokenize {source : List Char} {t : Token} (h : t ∈ tokenize source) :
    ∃ front text behind, source = front ++ text ++ behind ∧
      t.span = ⟨Text.byteLength front, Text.byteLength (front ++ text)⟩ ∧
      t.kind.Covers text t.value.toList behind := by
  obtain ⟨front, x, behind, hsource, hx, hkind, hvalue, -, hspan⟩ :=
    (reads_tokenize source).exists_lexeme h
  refine ⟨front, x.text, behind, hsource, ?_, ?_⟩
  · rw [hspan, Cursor.start, Nat.zero_add, Nat.zero_add]
  · rw [hkind, hvalue, String.toList_ofList]
    exact Lexeme.covers_of_precedes hx

/-- In `x<--!='` the comment that begins at `--` goes before an operator, and in `'it''s'` the quote
in the middle closes nothing. -/
theorem covers_quotation :
    (⟨.string, "it's", 2, 1, ⟨9, 16⟩⟩ : Token) ∈ tokenize "x<--!='\n 'it''s'/*/".toList ∧
      ∃ front text behind, "x<--!='\n 'it''s'/*/".toList = front ++ text ++ behind ∧
        (⟨9, 16⟩ : Span) = ⟨Text.byteLength front, Text.byteLength (front ++ text)⟩ ∧
        TokenKind.string.Covers text "it's".toList behind := by
  have h : (⟨.string, "it's", 2, 1, ⟨9, 16⟩⟩ : Token) ∈
      tokenize "x<--!='\n 'it''s'/*/".toList := by
    decide +kernel
  exact ⟨h, exists_covers_of_mem_tokenize h⟩

end SqlChecker
