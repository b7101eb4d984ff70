import SqlChecker.Proofs.Recognition.Definition
import SqlChecker.Proofs.Verdict

/-! # Valid lists of tokens

A list of tokens is valid if no token is a fault and the machine accepts what the grammar sees of
the tokens.  With that, the languages recognized are the languages of valid statements.
-/
namespace SqlChecker

variable {tokens : List Token}

/-- **The grammar of the statements that query, change and drop tables.**  Tokens that begin with
the keyword of such a statement are valid just if none is a fault and they are a word of the
grammar, alone or with a semicolon and anything at all after it. -/
theorem isValid_parse_iff_mem_statement {k : Keyword}
    (hk : k ∈ [.SELECT, .INSERT, .UPDATE, .DELETE, .DROP])
    (h : tokens.head?.map Token.kind = some (.keyword k)) :
    (parse tokens).isValid = true ↔ (∀ t ∈ tokens, t.fault? = none) ∧
      tokens.map Token.terminal ∈ Grammar.terminated Grammar.statement := by
  cases tokens with
  | nil => simp at h
  | cons t ts =>
    have ht : t.terminal = .keyword k := Token.terminal_eq_keyword_iff.mpr (by simpa using h)
    rw [isValid_parse_iff, List.map_cons, ht]
    exact and_congr_right fun _ => Goal.accepts_statement_iff _ hk

/-- `DROP TABLE t; )`, of which nothing after the semicolon matters. -/
theorem isValid_parse_dropTable :
    (parse [⟨.keyword .DROP, "DROP", 1, 1, ⟨0, 4⟩⟩, ⟨.keyword .TABLE, "TABLE", 1, 2, ⟨5, 10⟩⟩,
      ⟨.identifier, "t", 1, 3, ⟨11, 12⟩⟩, ⟨.punctuation .semicolon, ";", 1, 4, ⟨12, 13⟩⟩,
      ⟨.punctuation .rightParen, ")", 1, 5, ⟨14, 15⟩⟩]).isValid = true := by
  have named : [.identifier .other] ∈ Grammar.name :=
    Grammar.cons_mem_anyOf_mul rfl (Grammar.mem_optional_iff.mpr (.inl rfl))
  have word : [.keyword .DROP, .keyword .TABLE, .identifier .other] ∈ Grammar.drop := by
    rw [Grammar.drop, mul_assoc]
    exact Grammar.cons_mem_anyOf_mul rfl (Grammar.cons_mem_anyOf_mul rfl named)
  refine (isValid_parse_iff_mem_statement (k := .DROP) (by decide) rfl).mpr ⟨by decide, ?_⟩
  exact .inr ⟨_, .inr word, [.punctuation .rightParen], rfl⟩

/-- **The grammar of the statements that create and alter tables.**  A group in parentheses is
closed in such a statement, except that nothing needs to close the last group of a column added to a
table if the tokens end there. -/
theorem isValid_parse_iff_mem_tableStatement {k : Keyword} (hk : k ∈ [.CREATE, .ALTER])
    (h : tokens.head?.map Token.kind = some (.keyword k)) :
    (parse tokens).isValid = true ↔ (∀ t ∈ tokens, t.fault? = none) ∧
      tokens.map Token.terminal ∈ Grammar.tableStatement Grammar.openGroup +
        Grammar.beforeSemicolon (Grammar.tableStatement 0) := by
  cases tokens with
  | nil => simp at h
  | cons t ts =>
    have ht : t.terminal = .keyword k := Token.terminal_eq_keyword_iff.mpr (by simpa using h)
    rw [isValid_parse_iff, List.map_cons, ht]
    exact and_congr_right fun _ => Goal.accepts_tableStatement_iff _ hk

/-- `CREATE TABLE t (a INT)` is valid, and so it is a word of the grammar. -/
theorem createTable_mem_tableStatement :
    [.keyword .CREATE, .keyword .TABLE, .identifier .other, .punctuation .leftParen,
      .identifier .other, .identifier .other, .punctuation .rightParen] ∈
        Grammar.tableStatement Grammar.openGroup +
          Grammar.beforeSemicolon (Grammar.tableStatement 0) := by
  have valid : (parse [⟨.keyword .CREATE, "CREATE", 1, 1, ⟨0, 6⟩⟩,
      ⟨.keyword .TABLE, "TABLE", 1, 2, ⟨7, 12⟩⟩, ⟨.identifier, "t", 1, 3, ⟨13, 14⟩⟩,
      ⟨.punctuation .leftParen, "(", 1, 4, ⟨15, 16⟩⟩, ⟨.identifier, "a", 1, 4, ⟨16, 17⟩⟩,
      ⟨.identifier, "INT", 1, 5, ⟨18, 21⟩⟩,
      ⟨.punctuation .rightParen, ")", 1, 5, ⟨21, 22⟩⟩]).isValid = true := by
    decide +kernel
  exact ((isValid_parse_iff_mem_tableStatement (k := .CREATE) (by decide) rfl).mp valid).2

/-- Not every valid statement has all its groups closed: `ALTER TABLE t ADD a INT CHECK (` has
not. -/
theorem exists_isValid_with_openGroup :
    ∃ tokens : List Token, tokens.head?.map Token.kind = some (.keyword .ALTER) ∧
      (parse tokens).isValid = true ∧
      tokens.map Token.terminal ∉ Grammar.terminated (Grammar.tableStatement 0) := by
  refine ⟨[⟨.keyword .ALTER, "ALTER", 1, 1, ⟨0, 5⟩⟩, ⟨.keyword .TABLE, "TABLE", 1, 2, ⟨6, 11⟩⟩,
    ⟨.identifier, "t", 1, 3, ⟨12, 13⟩⟩, ⟨.keyword .ADD, "ADD", 1, 4, ⟨14, 17⟩⟩,
    ⟨.identifier, "a", 1, 5, ⟨18, 19⟩⟩, ⟨.identifier, "INT", 1, 6, ⟨20, 23⟩⟩,
    ⟨.identifier, "CHECK", 1, 7, ⟨24, 29⟩⟩, ⟨.punctuation .leftParen, "(", 1, 8, ⟨30, 31⟩⟩],
    rfl, by decide +kernel, ?_⟩
  rintro (hw | ⟨w, -, rest, hw⟩)
  -- As a word of the grammar it would leave the semicolon to be seen, but the group takes it.
  · have left := Goal.run_alteration_of_mem hw []
    have taken : Goal.run [.keyword .TABLE .alterTable, .name .alteredName, .alteration]
        [.keyword .TABLE, .identifier .other, .keyword .ADD, .identifier .other, .identifier .other,
          .identifier .other, .punctuation .leftParen, .punctuation .semicolon] = .accepted [] := by
      decide +kernel
    exact absurd (left.symm.trans taken) (by decide)
  · have : Terminal.punctuation .semicolon ∈ w ++ .punctuation .semicolon :: rest := by simp
    rw [← hw] at this
    exact absurd this (by decide)

end SqlChecker
