import SqlChecker.Proofs.Findings
import SqlChecker.Proofs.Lexing.Seam

/-! # Quoted text does not get out

What stands between two quotes is written with its quotes doubled.  Whatever it is, as long as it
stays in its line, it is read as the same quotation: put in place of another quotation, it leaves
all other tokens of the text as they were, and what is reported of the text as well
(`requoted_tokenize`).
-/
namespace SqlChecker

/-- The token with other content between its quotes. -/
def Token.requoted (quote : Char) (content : List Char) (t : Token) : Token :=
  { t with
    value := String.ofList content
    span := ⟨t.span.start,
      t.span.start + Text.byteLength (Lexeme.quotation quote content).text⟩ }

/-- The token, counted from where a stretch now ends and not from where it ended. -/
def Token.rebase (old new : Nat) (t : Token) : Token :=
  { t with span := ⟨t.span.start - old + new, t.span.stop - old + new⟩ }

/-- The quotation is the first token, and one text quotes it with the content it had, the other with
the content put in. -/
def Token.QuotedFirst (before : List Token) (content : List Char) (t : Token)
    (found found' : String) : Prop :=
  before = [] ∧ found = t.value ∧ found' = String.ofList content

/-- Only a quotation that is closed makes a string. -/
theorem Lexeme.exists_quotation_of_kind {x : Lexeme} (h : x.kind = .string) :
    ∃ quote content, x = .quotation quote content := by
  cases x with
  | quotation quote content => exact ⟨quote, content, rfl⟩
  | word text =>
    rw [kind] at h
    split at h <;> cases h
  | _ => cases h

/-! ### The tokens behind -/

/-- Behind a place, only the bytes in front of it are told apart. -/
theorem Reads.rebase {c c' : Cursor} {ts : List Token} {text : List Char} (h : Reads c ts text)
    (hline : c'.line = c.line) (hword : c'.word = c.word) :
    Reads c' (ts.map (Token.rebase c.offset c'.offset)) text := by
  -- Both are read as from a place with no bytes in front of it.
  let base : Cursor := { c with offset := 0 }
  have hbase : Reads base _ text := reads_drain ⟨base, text⟩
  have hc : Cursor.Behind c.offset 0 base c := ⟨(Nat.zero_add _).symm, rfl, rfl⟩
  have hc' : Cursor.Behind c'.offset 0 base c' := ⟨(Nat.zero_add _).symm, hline, hword⟩
  have hts := (reads_iff.mp h).symm.trans (reads_iff.mp (hbase.shift hc))
  have hrebase : ts.map (Token.rebase c.offset c'.offset) =
      (Lexer.mk base text).drain.1.map (Token.shift c'.offset 0) := by
    rw [hts, List.map_map]
    refine List.map_congr_left fun t _ => ?_
    simp only [Function.comp_apply, Token.shift, Token.rebase, Span.shift, Nat.add_sub_cancel]
  rw [hrebase]
  exact hbase.shift hc'

/-- Past a quotation, a cursor has gone on by the bytes of it and by one word. -/
theorem Cursor.passLexeme_quotation {quote : Char} {content : List Char}
    (hq : Lexeme.IsQuote quote) (hcontent : '\n' ∉ content) (c : Cursor) :
    c.passLexeme (.quotation quote content) =
      { c with
        offset := c.offset + Text.byteLength (Lexeme.quotation quote content).text
        word := c.word + 1 } := by
  have hx : (Lexeme.quotation quote content).Precedes [] := ⟨hq, hcontent, fun h => by cases h⟩
  have hn := Lexeme.newline_notMem_text hx fun h => by cases h
  rw [passLexeme, passAll_of_newline_notMem hn]
  exact if_pos rfl

/-- **Another quotation in place of a quotation** is read as one token, and the tokens around it are
read as they were. -/
theorem tokenize_requoted {before after : List Token} {t : Token}
    {front covered behind content : List Char} {quote : Char}
    (h : tokenize (front ++ covered ++ behind) = before ++ t :: after) (hkind : t.kind = .string)
    (hspan : t.span = ⟨Text.byteLength front, Text.byteLength (front ++ covered)⟩)
    (hquote : covered.head? = some quote) (hcontent : '\n' ∉ content) :
    tokenize (front ++ (Lexeme.quotation quote content).text ++ behind) =
      before ++ t.requoted quote content ::
        after.map (Token.rebase t.span.stop (t.requoted quote content).span.stop) := by
  obtain ⟨c, front', x, rest, htext, hoffset, rfl, hx, hafter, hother⟩ :=
    Reads.exists_token (h ▸ reads_tokenize (front ++ covered ++ behind))
  obtain ⟨q, old, rfl⟩ := Lexeme.exists_quotation_of_kind hkind
  obtain ⟨hstart, hstop⟩ := Span.mk.inj hspan
  -- The token is where its span says.
  have hplace : Text.byteLength front = Text.byteLength front' := by
    rw [← hstart, hoffset, Cursor.start, Nat.zero_add]
  have hlength : Text.byteLength covered = Text.byteLength (Lexeme.quotation q old).text := by
    rw [hstart, Text.byteLength_append] at hstop
    exact (Nat.add_left_cancel hstop).symm
  rw [List.append_assoc, List.append_assoc] at htext
  obtain ⟨rfl, hback⟩ := Text.append_inj_of_byteLength htext hplace
  obtain ⟨rfl, rfl⟩ := Text.append_inj_of_byteLength hback hlength
  obtain rfl : q = quote := Option.some.inj hquote
  obtain ⟨hq, hold, hbehind⟩ := hx
  have hx' : (Lexeme.quotation q content).Precedes behind := ⟨hq, hcontent, hbehind⟩
  have hpass := Cursor.passLexeme_quotation hq hold c
  have hpass' := Cursor.passLexeme_quotation hq hcontent c
  have hafter' : Reads (c.passLexeme (.quotation q content)) _ behind :=
    hafter.rebase (by rw [hpass, hpass']) (by rw [hpass, hpass'])
  rw [Cursor.offset_passLexeme, Cursor.offset_passLexeme] at hafter'
  exact tokenize_of_reads (hother hx' rfl hafter')

/-! ### What is reported -/

/-- What is told of a token by its kind and its place in the lines does not change. -/
theorem map_requoted {α : Type} {f : Token → α} {quote : Char} {content : List Char}
    {before after : List Token} {t : Token} {old new : Nat}
    (ht : f (t.requoted quote content) = f t) (hafter : ∀ u, f (Token.rebase old new u) = f u) :
    (before ++ t.requoted quote content :: after.map (Token.rebase old new)).map f =
      (before ++ t :: after).map f := by
  rw [List.map_append, List.map_append, List.map_cons, List.map_cons, List.map_map, ht]
  exact congrArg (before.map f ++ f t :: ·) (List.map_congr_left fun u _ => hafter u)

theorem Token.terminal_of_string {t : Token} (h : t.kind = .string) : t.terminal = .string := by
  rw [terminal, h]

/-- **Quoted text does not get out.**  Let a token of a source be a closed quotation, and let any
other content that stays in its line be put between its quotes, with its quotes doubled.  Then the
token carries that content, all others are as they were but for the bytes in front of them, and the
problems are the same, at the same lines and words.  Only the message that quotes the first word of
a statement may change, if the quotation is that word. -/
theorem requoted_tokenize {before after : List Token} {t : Token}
    {front covered behind content : List Char} {quote : Char}
    (htokens : tokenize (front ++ covered ++ behind) = before ++ t :: after)
    (hkind : t.kind = .string)
    (hspan : t.span = ⟨Text.byteLength front, Text.byteLength (front ++ covered)⟩)
    (hquote : covered.head? = some quote) (hcontent : '\n' ∉ content) :
    let source := front ++ covered ++ behind
    let source' := front ++ (quote :: (Lexeme.doubled quote content ++ [quote])) ++ behind
    tokenize source' = before ++ t.requoted quote content ::
        after.map (Token.rebase t.span.stop (t.requoted quote content).span.stop) ∧
    ∀ settings : Settings,
      (∀ limit ∈ settings.maxInputBytes?,
        Text.byteLength source ≤ limit ∧ Text.byteLength source' ≤ limit) →
      (validate settings source').isValid = (validate settings source).isValid ∧
      List.Forall₂
        (fun d d' => d'.line = d.line ∧ d'.word = d.word ∧
          d.SaysSame (t.QuotedFirst before content) d')
        (validate settings source).errors (validate settings source').errors := by
  intro source source'
  have htokens' : tokenize source' = before ++ t.requoted quote content ::
      after.map (Token.rebase t.span.stop (t.requoted quote content).span.stop) :=
    tokenize_requoted htokens hkind hspan hquote hcontent
  refine ⟨htokens', fun settings hlimit => ?_⟩
  have same {α : Type} {f : Token → α} (ht : f (t.requoted quote content) = f t)
      (hrebase : ∀ old new u, f (Token.rebase old new u) = f u) :
      (tokenize source').map f = (tokenize source).map f := by
    rw [htokens, htokens']
    exact map_requoted ht (hrebase _ _)
  have hfaults := same (f := Token.fault?) rfl fun _ _ _ => rfl
  have hterminals := same (f := Token.terminal)
    (by rw [Token.terminal_of_string hkind, Token.terminal_of_string (t := t.requoted ..) hkind])
    fun _ _ _ => rfl
  have hplaces := same (f := fun u => (u.line, u.word)) rfl fun _ _ _ => rfl
  have hquotes : Verdict.valueAt (tokenize source') 0 = Verdict.valueAt (tokenize source) 0 ∨
      t.QuotedFirst before content (Verdict.valueAt (tokenize source) 0)
        (Verdict.valueAt (tokenize source') 0) := by
    rw [htokens, htokens']
    cases before with
    | nil => exact .inr ⟨rfl, rfl, rfl⟩
    | cons b before => exact .inl rfl
  have herrors := parse_saysSame hfaults hterminals hquotes source source'
  rw [← validate_eq fun limit hl => (hlimit limit hl).1,
    ← validate_eq fun limit hl => (hlimit limit hl).2] at herrors
  refine ⟨Report.isValid_eq_of_forall₂ herrors, herrors.imp ?_⟩
  rintro d d' ⟨⟨i, hpoint, hpoint'⟩, hsays⟩
  obtain ⟨hline, hword⟩ := Diagnostic.PointsAt.place_eq_place hplaces hpoint hpoint'
  exact ⟨hline, hword, hsays⟩

/-- What would end the statement and open a comment, between quotes. -/
theorem requoted_dropTable :
    let front := "SELECT ".toList
    let before : List Token := [⟨.keyword .SELECT, "SELECT", 1, 1, ⟨0, 6⟩⟩]
    let t : Token := ⟨.string, "a", 1, 2, ⟨7, 10⟩⟩
    let after : List Token := [⟨.identifier, "b", 1, 3, ⟨11, 12⟩⟩]
    tokenize (front ++ "'a'".toList ++ " b".toList) = before ++ t :: after ∧
    t.kind = .string ∧ t.span = ⟨Text.byteLength front, Text.byteLength (front ++ "'a'".toList)⟩ ∧
    "'a'".toList.head? = some '\'' ∧ '\n' ∉ "'; DROP TABLE t /*".toList ∧
    tokenize (front ++ ('\'' :: (Lexeme.doubled '\'' "'; DROP TABLE t /*".toList ++ ['\''])) ++
        " b".toList) =
      before ++ ⟨.string, "'; DROP TABLE t /*", 1, 2, ⟨7, 28⟩⟩ ::
        [⟨.identifier, "b", 1, 3, ⟨29, 30⟩⟩] := by
  intro front before t after
  have htokens : tokenize (front ++ "'a'".toList ++ " b".toList) = before ++ t :: after := by
    decide +kernel
  have hspan : t.span = ⟨Text.byteLength front, Text.byteLength (front ++ "'a'".toList)⟩ := by
    decide +kernel
  have hcontent : '\n' ∉ "'; DROP TABLE t /*".toList := by decide
  refine ⟨htokens, rfl, hspan, rfl, hcontent, ?_⟩
  exact (requoted_tokenize htokens rfl hspan rfl hcontent).1

end SqlChecker
