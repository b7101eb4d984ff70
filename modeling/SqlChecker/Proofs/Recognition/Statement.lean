import SqlChecker.Proofs.Recognition.Query

/-! # Statements are recognized

The statements that query, change and drop tables, each after its first keyword.  None of them goes
on with a semicolon, so that a statement is recognized together with what ends it
(`run_statement_accepts_iff`).
-/
namespace SqlChecker.Goal
open Matcher Terminal RecognizesBefore Computability

/-! ### What follows the first keyword -/

section
variable (n : Nat)

theorem recognizes_query :
    Recognizes n (run [columns, source]) (Grammar.columns * Grammar.optional Grammar.source)
      ⟨expressionProfile.first, fun t => !among [.punctuation .semicolon] t, false⟩ :=
  ((recognizes_columns n).cons (recognizes_source n) (by decide)).fits (by decide)

theorem recognizes_columnList :
    Recognizes n (run [columnList]) (Grammar.optional (Grammar.parenthesized Grammar.columns))
      ⟨among [.punctuation .leftParen], among [.punctuation .leftParen], true⟩ := by
  have whole := maybe (among [.punctuation .leftParen])
    ((recognizes_columns n).cons (recognizes_mark n .columnListClose .rightParen) (by decide))
  rw [← mul_assoc] at whole
  rw [run_columnList]
  exact whole.pred.fits (by decide)

theorem recognizes_moreRows :
    Recognizes n (run [moreRows]) (Grammar.mark .comma * Grammar.row)∗
      ⟨among [.punctuation .comma], among [.punctuation .comma], true⟩ :=
  (repeated (takes_takeOne (among [.punctuation .comma])) (recognizes_row n) run_moreRows
    (by decide)).pred.fits (by decide)

theorem recognizes_insertion :
    Recognizes n
      (run ([keyword .INTO .insertInto, name .insertTable, columnList,
        keyword .VALUES .insertValues] ++ row ++ [moreRows]))
      (Grammar.keyword .INTO * Grammar.name *
        Grammar.optional (Grammar.parenthesized Grammar.columns) * Grammar.keyword .VALUES *
        Grammar.list Grammar.row)
      ⟨among [.keyword .INTO], among [.punctuation .comma], false⟩ := by
  have target := (recognizes_name n .insertTable).cons ((recognizes_columnList n).cons
    (recognizes_keyword n .insertValues .VALUES) (by decide)) (by decide)
  have rows := append (recognizes_row n) (recognizes_moreRows n) (by decide)
  have whole := append ((recognizes_keyword n .insertInto .INTO).cons target (by decide)) rows
    (by decide)
  simp only [← mul_assoc] at whole
  rw [Grammar.list, ← mul_assoc]
  exact whole.fits (by decide)

theorem recognizes_assignment (missing : SyntaxError) :
    Recognizes n (run (assignment missing)) Grammar.assignment
      ⟨isName, expressionProfile.extend, false⟩ := by
  have value := (recognizes_expect n .assignmentSign [.operator .equal]).cons
    (recognizes_expression n .assignedExpression) (by decide)
  have whole := (recognizes_name n missing).cons value (by decide)
  rw [← mul_assoc] at whole
  exact whole.fits (by decide)

theorem recognizes_update :
    Recognizes n
      (run ([name .updateTable, keyword .SET .updateSet] ++ assignment .assignedColumn ++
        [moreAssignments, whereClause]))
      (Grammar.name * Grammar.keyword .SET * Grammar.list Grammar.assignment *
        Grammar.optional Grammar.whereClause)
      ⟨isName, fun t => among [.keyword .WHERE, .punctuation .comma] t || conditionProfile.extend t,
        false⟩ := by
  have more := repeated (takes_takeOne (among [.punctuation .comma]))
    (recognizes_assignment n .assignmentAfterComma) run_moreAssignments (by decide)
  have target := (recognizes_name n .updateTable).cons (recognizes_keyword n .updateSet .SET)
    (by decide)
  have whole := append (append target (recognizes_assignment n .assignedColumn) (by decide))
    (more.pred.cons (recognizes_whereClause n) (by decide)) (by decide)
  rw [Grammar.list]
  simp only [← mul_assoc] at whole ⊢
  exact whole.fits (by decide)

theorem recognizes_delete :
    Recognizes n (run [keyword .FROM .deleteFrom, name .deleteTable, whereClause])
      (Grammar.keyword .FROM * Grammar.name * Grammar.optional Grammar.whereClause)
      ⟨among [.keyword .FROM], fun t => among [.keyword .WHERE, .punctuation .dot] t ||
        conditionProfile.extend t, false⟩ := by
  have whole := (recognizes_keyword n .deleteFrom .FROM).cons
    ((recognizes_name n .deleteTable).cons (recognizes_whereClause n) (by decide)) (by decide)
  rw [← mul_assoc] at whole
  exact whole.fits (by decide)

theorem recognizes_drop :
    Recognizes n (run [keyword .TABLE .dropTable, name .droppedName])
      (Grammar.keyword .TABLE * Grammar.name)
      ⟨among [.keyword .TABLE], among [.punctuation .dot], false⟩ :=
  ((recognizes_keyword n .dropTable .TABLE).cons (recognizes_name n .droppedName)
    (by decide)).fits (by decide)

end

/-! ### Whole statements -/

/-- **What ends a statement.**  A statement is accepted if what follows its first keyword is a word
of a recognized language, up to the end or up to a semicolon.  Not the same words need be recognized
in both places. -/
theorem run_statement_accepts_iff_of_ends {k : Keyword} {goals : List Goal}
    {L M : Language Terminal} {p q : Profile} (hb : body? (.keyword k) = some goals)
    (h : ∀ n, RecognizesBefore (· = []) n (run goals) L p)
    (h' : ∀ n, RecognizesBefore (· ≠ []) n (run goals) M q)
    (hs : q.extend (.punctuation .semicolon) = false) (ts : List Terminal) :
    (∃ rest, run [statement] (.keyword k :: ts) = .accepted rest) ↔
      ts ∈ L + Grammar.beforeSemicolon M := by
  rw [run_statement_cons, hb, Language.mem_add]
  simp only [run_append, andThen_eq_accepted_iff, run_terminator_eq_accepted_iff]
  constructor
  · rintro ⟨rest, mid, hmid, ⟨rfl, -⟩ | rfl⟩
    -- What is left over is nothing, or begins with the semicolon.
    · obtain ⟨w, hw, rfl⟩ := (h _).sound (Nat.lt_succ_self ts.length) rfl hmid
      rw [List.append_nil]
      exact .inl hw
    · obtain ⟨w, hw, rfl⟩ :=
        (h' _).sound (Nat.lt_succ_self ts.length) (List.cons_ne_nil _ _) hmid
      exact .inr ⟨w, hw, rest, rfl⟩
  · rintro (hw | ⟨w, hw, rest, rfl⟩)
    · have whole := (h _).complete hw (Nat.lt_succ_self ts.length) rfl (by intro t ht; cases ht)
      rw [List.append_nil] at whole
      exact ⟨[], [], whole, .inl ⟨rfl, rfl⟩⟩
    · refine ⟨rest, .punctuation .semicolon :: rest, ?_, .inr rfl⟩
      refine (h' _).complete hw (Nat.lt_succ_self w.length) (List.cons_ne_nil _ _) ?_
      intro t ht
      obtain rfl := Option.some.inj ht
      exact hs

theorem run_statement_accepts_iff {k : Keyword} {goals : List Goal} {L : Language Terminal}
    {p : Profile} (hb : body? (.keyword k) = some goals) (h : ∀ n, Recognizes n (run goals) L p)
    (hs : p.extend (.punctuation .semicolon) = false) (ts : List Terminal) :
    (∃ rest, run [statement] (.keyword k :: ts) = .accepted rest) ↔ ts ∈ Grammar.terminated L :=
  run_statement_accepts_iff_of_ends hb (fun n => (h n).before) (fun n => (h n).before) hs ts

/-- **A statement that queries, changes or drops a table** is accepted just if it is a word of the
grammar up to where it ends. -/
theorem accepts_statement_iff {k : Keyword} (ts : List Terminal)
    (hk : k ∈ [.SELECT, .INSERT, .UPDATE, .DELETE, .DROP]) :
    (∃ rest, run [statement] (.keyword k :: ts) = .accepted rest) ↔
      .keyword k :: ts ∈ Grammar.terminated Grammar.statement := by
  simp only [Grammar.statement, Grammar.select, Grammar.insert, Grammar.update, Grammar.delete,
    Grammar.drop, mul_assoc, Grammar.terminated_add, Language.mem_add,
    Grammar.cons_mem_terminated_iff]
  simp only [List.mem_cons, List.not_mem_nil, or_false] at hk
  rcases hk with rfl | rfl | rfl | rfl | rfl
  · have accepts := run_statement_accepts_iff (k := .SELECT) rfl recognizes_query (by decide) ts
    simpa [mul_assoc] using accepts
  · have accepts := run_statement_accepts_iff (k := .INSERT) rfl recognizes_insertion (by decide) ts
    simpa [mul_assoc] using accepts
  · have accepts := run_statement_accepts_iff (k := .UPDATE) rfl recognizes_update (by decide) ts
    simpa [mul_assoc] using accepts
  · have accepts := run_statement_accepts_iff (k := .DELETE) rfl recognizes_delete (by decide) ts
    simpa [mul_assoc] using accepts
  · have accepts := run_statement_accepts_iff (k := .DROP) rfl recognizes_drop (by decide) ts
    simpa [mul_assoc] using accepts

end SqlChecker.Goal
