import SqlChecker.Proofs.Lexing.Seam

/-! # Lines are read by themselves

Of all that may stand in a text, only a comment goes on behind the end of its line.  So a text that
ends its last line has no say in how the lines behind it are read, unless it leaves a comment open;
and if it does, there are lines behind which would be read otherwise by themselves
(`tokenize_append_iff`).
-/
namespace SqlChecker

variable {c : Cursor} {ts : List Token} {x : Lexeme} {text body : List Char}

/-- Only a comment that is not closed is reported as one. -/
theorem Lexeme.exists_openComment_of_kind (h : x.kind = .fault LexicalFault.openComment.message) :
    ∃ body, x = .openComment body := by
  cases x with
  | openComment body => exact ⟨body, rfl⟩
  | openQuotation quote content =>
    exact nomatch LexicalFault.message_injective (TokenKind.fault.inj h)
  | stray c => exact nomatch LexicalFault.message_injective (TokenKind.fault.inj h)
  | word text =>
    rw [kind] at h
    split at h <;> cases h
  | _ => cases h

/-- A closing mark closes a comment in which none stands. -/
theorem Trivia.closesAtEnd_append_mark (h : ¬ ['*', '/'] <:+: body) :
    ClosesAtEnd (body ++ ['*', '/']) := by
  refine ⟨⟨body, rfl⟩, fun a b hmark => ?_⟩
  -- A mark in front of this one ends before it, or shares the asterisk with it.
  rcases List.eq_nil_or_concat b with rfl | ⟨b, slash, rfl⟩
  · rfl
  rw [List.concat_eq_append] at hmark
  have hfront : body ++ ['*'] ++ ['/'] = a ++ '*' :: '/' :: b ++ [slash] := by
    simpa using hmark
  have hasterisk := (List.append_inj' hfront rfl).1
  rcases List.eq_nil_or_concat b with rfl | ⟨b, asterisk, rfl⟩
  · have hlast : body ++ ['*'] = a ++ ['*'] ++ ['/'] := by simpa using hasterisk
    exact absurd (List.append_inj' hlast rfl).2 (by decide)
  · have hbody : body ++ ['*'] = a ++ '*' :: '/' :: b ++ [asterisk] := by simpa using hasterisk
    refine absurd ⟨a, b, ?_⟩ h
    rw [(List.append_inj' hbody rfl).1, List.append_assoc]
    rfl

namespace Reads

/-- **A closing mark behind a text** closes the comment that the text leaves open, which is the last
of its tokens and then none any more. -/
theorem close (h : Reads c ts text)
    (hopen : ∃ t ∈ ts, t.kind = .fault LexicalFault.openComment.message) :
    Reads c ts.dropLast (text ++ ['*', '/']) := by
  induction h with
  | done => exact absurd hopen (by simp)
  | @token c x ts gap rest hgap hx hrest ih =>
    obtain ⟨t, ht, hkind⟩ := hopen
    rcases List.mem_cons.mp ht with rfl | ht
    · obtain ⟨body, rfl⟩ := Lexeme.exists_openComment_of_kind hkind
      obtain ⟨hbody, rfl⟩ := hx
      obtain rfl := hrest.eq_nil_of_nil
      have hcomment := Trivia.append_mem_gap
        (.blockComment (Trivia.closesAtEnd_append_mark hbody)) Trivia.nil_mem_gap
      rw [List.append_nil] at hcomment ⊢
      rw [List.append_assoc]
      refine .done (Trivia.mem_tail_of_mem_gap ?_)
      rw [← Trivia.gap_mul_gap]
      exact Language.append_mem_mul hgap hcomment
    · have hne : rest ≠ [] := by
        rintro rfl
        rw [hrest.eq_nil_of_nil] at ht
        cases ht
      rw [List.append_assoc _ rest, List.dropLast_cons_of_ne_nil (List.ne_nil_of_mem ht)]
      exact .token hgap (hx.append hne _) (ih ⟨t, ht, hkind⟩)

end Reads

/-- **A text that ends its last line is read apart from what is behind it** just if it leaves no
comment open.  Then, whatever else is wrong with it, the tokens of the whole are its own and behind
them those of the further text, so many bytes and lines further on. -/
theorem tokenize_append_iff {front : List Char} (hend : front.getLast? = some '\n') :
    (∀ back, tokenize (front ++ back) = tokenize front ++
      (tokenize back).map (Token.shift (Text.byteLength front) (front.count '\n'))) ↔
    ∀ t ∈ tokenize front, t.kind ≠ .fault LexicalFault.openComment.message := by
  constructor
  · intro h t ht hkind
    have hclose : tokenize (front ++ ['*', '/']) = (tokenize front).dropLast :=
      tokenize_of_reads ((reads_tokenize front).close ⟨t, ht, hkind⟩)
    have hlength := congrArg List.length ((h ['*', '/']).symm.trans hclose)
    have hpos := List.length_pos_of_mem ht
    rw [List.length_append, List.length_dropLast] at hlength
    omega
  · exact fun hopen back => tokenize_append hend hopen back

/-- Neither a quotation that is not closed nor a stray character is seen on the next line. -/
theorem tokenize_append_openQuotation :
    "a 'b # /*\n/* é\n*/ #\n".toList.getLast? = some '\n' ∧
    (∀ t ∈ tokenize "a 'b # /*\n/* é\n*/ #\n".toList,
      t.kind ≠ .fault LexicalFault.openComment.message) ∧
    tokenize ("a 'b # /*\n/* é\n*/ #\n".toList ++ "c' -- d".toList) =
      tokenize "a 'b # /*\n/* é\n*/ #\n".toList ++
        (tokenize "c' -- d".toList).map (Token.shift 21 3) := by
  have hend : "a 'b # /*\n/* é\n*/ #\n".toList.getLast? = some '\n' := by decide
  have hopen : ∀ t ∈ tokenize "a 'b # /*\n/* é\n*/ #\n".toList,
      t.kind ≠ .fault LexicalFault.openComment.message := by decide +kernel
  exact ⟨hend, hopen, (tokenize_append_iff hend).mpr hopen "c' -- d".toList⟩

end SqlChecker
