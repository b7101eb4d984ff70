import SqlChecker.Proofs.Lexing.Layout
import SqlChecker.Proofs.TokenKinds

/-! # Independence of the layout

A verdict on tokens depends on their kinds and values alone, and their places matter only for the
place of a problem.  So two layouts of the same tokens are judged alike, with problems at tokens
that correspond.
-/
namespace SqlChecker

variable {tokens tokens' : List Token}

/-- The content of a token is all that is read of it. -/
theorem Token.readsAs_of_content {t t' : Token} (h : t'.content = t.content) : t.ReadsAs t' := by
  have hvalue : t'.value = t.value := congrArg Prod.snd h
  have spells (word : String) : t'.Spells word ↔ t.Spells word := by rw [Spells, Spells, hvalue]
  exact ⟨congrArg Prod.fst h, fun _ => spells "NO", fun _ => spells "ACTION"⟩

/-- Two problems say the same of tokens with the same index in their lists, if there are tokens. -/
structure Diagnostic.Corresponds (tokens tokens' : List Token) (d d' : Diagnostic) : Prop where
  message_eq : d'.message = d.message
  placed : ∃ i, (tokens ≠ [] → i < tokens.length) ∧
    d.PointsAt tokens[i]? ∧ d'.PointsAt tokens'[i]?

/-- **The places of tokens do not matter** for what is wrong with them. -/
theorem parse_corresponds (h : tokens'.map Token.content = tokens.map Token.content)
    (source source' : List Char) :
    List.Forall₂ (Diagnostic.Corresponds tokens tokens')
      ((parse tokens).attachLines source).errors ((parse tokens').attachLines source').errors := by
  have hsame : List.Forall₂ (fun t t' => t'.content = t.content) tokens tokens' := by
    rw [← List.forall₂_eq_eq_eq, List.forall₂_map_left_iff, List.forall₂_map_right_iff] at h
    exact h.flip
  have hfaults := map_eq_of_forall₂ hsame fun _ _ ht => (Token.readsAs_of_content ht).fault?_eq
  have hterminals := map_eq_of_forall₂ hsame fun _ _ ht => (Token.readsAs_of_content ht).terminal_eq
  have hvalues : tokens'.map Token.value = tokens.map Token.value :=
    map_eq_of_forall₂ hsame fun _ _ ht => congrArg Prod.snd ht
  refine (parse_tells hfaults hterminals source source').imp ?_
  rintro d d' ⟨found, hmem, ⟨hd, hpoint⟩, ⟨hd', hpoint'⟩⟩
  have hvalue : Verdict.valueAt tokens' found.1 = Verdict.valueAt tokens found.1 := by
    rw [Verdict.valueAt, Verdict.valueAt, ← List.getElem?_map, ← List.getElem?_map, hvalues]
  refine ⟨by rw [hd, hd', hvalue], found.1, fun hne => ?_, hpoint, hpoint'⟩
  exact Verdict.lt_length_of_mem_findings hne hmem

/-- **Independence of the layout.**  Let a source have no faults, and let its tokens be written in
order with other trivia around them: any in front of the first, and between any two, and behind the
last if there is any, trivia that begins with a blank.  Then the tokens are the same but for their
places, and the problems are the same at tokens that correspond. -/
theorem validate_corresponds_of_mem_layouts {settings : Settings} {source source' : List Char}
    (hlimit : ∀ limit ∈ settings.maxInputBytes?,
      Text.byteLength source ≤ limit ∧ Text.byteLength source' ≤ limit)
    (hf : ∀ t ∈ tokenize source, t.fault? = none) (h : source' ∈ layouts (tokenTexts source)) :
    (tokenize source').map Token.content = (tokenize source).map Token.content ∧
    (validate settings source').isValid = (validate settings source).isValid ∧
    List.Forall₂ (Diagnostic.Corresponds (tokenize source) (tokenize source'))
      (validate settings source).errors (validate settings source').errors := by
  have hcontent := content_tokenize_of_mem_layouts hf h
  have herrors := parse_corresponds hcontent source source'
  rw [← validate_eq fun limit hl => (hlimit limit hl).1,
    ← validate_eq fun limit hl => (hlimit limit hl).2] at herrors
  exact ⟨hcontent, Report.isValid_eq_of_forall₂ herrors, herrors⟩

/-- `DROP TABLE` without a name, and again with a comment between its tokens. -/
theorem validate_corresponds_dropTable :
    (∀ limit ∈ ({} : Settings).maxInputBytes?,
      Text.byteLength "DROP TABLE".toList ≤ limit ∧
      Text.byteLength "/**/DROP\n-- '*\nTABLE\t".toList ≤ limit) ∧
    (∀ t ∈ tokenize "DROP TABLE".toList, t.fault? = none) ∧
    "/**/DROP\n-- '*\nTABLE\t".toList ∈ layouts (tokenTexts "DROP TABLE".toList) ∧
    List.Forall₂
      (Diagnostic.Corresponds (tokenize "DROP TABLE".toList)
        (tokenize "/**/DROP\n-- '*\nTABLE\t".toList))
      (validate {} "DROP TABLE".toList).errors
      (validate {} "/**/DROP\n-- '*\nTABLE\t".toList).errors := by
  have hlimit : ∀ limit ∈ ({} : Settings).maxInputBytes?,
      Text.byteLength "DROP TABLE".toList ≤ limit ∧
      Text.byteLength "/**/DROP\n-- '*\nTABLE\t".toList ≤ limit := fun _ h => nomatch h
  have hf : ∀ t ∈ tokenize "DROP TABLE".toList, t.fault? = none := by decide +kernel
  have htexts : tokenTexts "DROP TABLE".toList = ["DROP".toList, "TABLE".toList] := by
    decide +kernel
  have h : "/**/DROP\n-- '*\nTABLE\t".toList ∈ layouts (tokenTexts "DROP TABLE".toList) := by
    have front : "/**/".toList ∈ Trivia.gap :=
      Trivia.append_mem_gap (.blockComment Trivia.closesAtEnd_mark) Trivia.nil_mem_gap
    have comment : Trivia.IsPiece "-- '*\n".toList :=
      .lineComment (show '\n' ∉ " '*".toList by decide)
    have between : "\n-- '*\n".toList ∈ Trivia.spacing :=
      ⟨Trivia.append_mem_gap (.blank rfl) (Trivia.append_mem_gap comment Trivia.nil_mem_gap),
        '\n', rfl, rfl⟩
    have behind : "\t".toList ∈ Trivia.spacing :=
      ⟨Trivia.append_mem_gap (.blank rfl) Trivia.nil_mem_gap, '\t', rfl, rfl⟩
    rw [htexts]
    exact ⟨_, ⟨_, front, _, ⟨_, ⟨_, rfl, _, between, rfl⟩, _, rfl, rfl⟩, rfl⟩, _, .inr behind, rfl⟩
  exact ⟨hlimit, hf, h, (validate_corresponds_of_mem_layouts hlimit hf h).2.2⟩

end SqlChecker
