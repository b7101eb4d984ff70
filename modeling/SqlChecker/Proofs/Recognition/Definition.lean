import SqlChecker.Proofs.Recognition.Constraint
import SqlChecker.Proofs.Recognition.Statement

/-! # Definitions are recognized

The statements that create and alter tables.  In a table that is created every group is closed, for
a parenthesis still has to follow; a table that is altered may end with a group that is not.
-/
namespace SqlChecker.Goal
open Matcher Terminal RecognizesBefore Computability

/-! ### Tables to be created -/

/-- How the definition of a column or a constraint of a table begins and goes on. -/
def definitionProfile : Profile where
  first := isName
  extend := constraintsProfile.extend
  empty := false

theorem recognizes_definition (n : Nat) :
    RecognizesBefore (· ≠ []) n (run [definition]) Grammar.definition definitionProfile := by
  have constrained := lead Grammar.isTableConstraint .definedColumn (recognizes_tableConstraint n)
  have column := recognizes_columnDefinition unclosedBefore_rest n
  have whole := choose_avoiding constrained.pred column nofun
  rw [mul_zero] at whole
  rw [run_definition]
  exact whole.fits (by decide)

theorem recognizes_moreDefinitions (n : Nat) :
    RecognizesBefore (· ≠ []) n (run [moreDefinitions])
      (Grammar.mark .comma * Grammar.definition)∗
      ⟨among [.punctuation .comma],
        fun t => among [.punctuation .comma] t || definitionProfile.extend t, true⟩ := by
  have hE (b rest : List Terminal) (hrest : rest ≠ []) : b ++ rest ≠ [] :=
    List.append_ne_nil_of_right_ne_nil b hrest
  exact (repeated_before hE (takes_takeOne (among [.punctuation .comma]))
    (recognizes_definition n) run_moreDefinitions (by decide)).pred

/-- **What creates a table.**  A word that a parenthesis ends is not empty, so that every group
before it is closed. -/
theorem recognizes_creation (n : Nat) :
    Recognizes n
      (run [keyword .TABLE .createTable, name .createdName, mark .leftParen .definitionsOpen,
        definition, moreDefinitions, mark .rightParen .definitionsClose])
      (Grammar.keyword .TABLE * Grammar.name * Grammar.parenthesized
        (Grammar.list Grammar.definition))
      ⟨among [.keyword .TABLE], among [], false⟩ := by
  -- The parenthesis at the end is left over for the definitions, whose groups are closed by then.
  have more : Recognizes n (run ([moreDefinitions] ++ [mark .rightParen .definitionsClose])) _ _ :=
    append_before (recognizes_moreDefinitions n) (recognizes_mark n .definitionsClose .rightParen)
      (by
        rintro b ⟨t, -, rfl⟩ rest -
        exact List.cons_ne_nil t rest)
      (by decide)
  have definitions : Recognizes n (run ([definition] ++ ([moreDefinitions] ++
      [mark .rightParen .definitionsClose]))) _ _ :=
    append_before (recognizes_definition n) more
      (by
        intro b hb rest _ he
        obtain ⟨rfl, -⟩ := List.append_eq_nil_iff.mp he
        simp [Grammar.mark] at hb)
      (by decide)
  have whole := (recognizes_keyword n .createTable .TABLE).cons
    ((recognizes_name n .createdName).cons
      ((recognizes_mark n .definitionsOpen .leftParen).cons definitions (by decide)) (by decide))
    (by decide)
  simp only [Grammar.parenthesized, Grammar.list, mul_assoc] at whole ⊢
  exact whole.fits (by decide)

/-! ### Tables to be altered -/

theorem recognizes_untilTerminator (n : Nat) :
    Recognizes n (run [untilTerminator]) Grammar.untilSemicolon
      ⟨fun t => !among [.punctuation .semicolon] t, fun t => !among [.punctuation .semicolon] t,
        true⟩ := by
  have nothing : Recognizes n (run []) 1 ⟨among [], among [], true⟩ := by
    rw [run_nil]
    exact done
  have whole := repeated (takes_takeOne fun t => !among [.punctuation .semicolon] t) nothing
    run_untilTerminator (by decide)
  rw [mul_one] at whole
  exact whole.pred.fits (by decide)

section
variable {E : List Terminal → Prop} {U : Language Terminal}

theorem recognizes_addition (hU : UnclosedBefore E U) (n : Nat) :
    RecognizesBefore E n (run [addition]) (Grammar.addition (Grammar.mark .leftParen * U))
      ⟨isName, fun t => !among [.punctuation .semicolon] t, false⟩ := by
  have column := recognizes_columnDefinition hU n
  have named := lead (among [.keyword .COLUMN]) .definedColumn column
  have constrained := lead Grammar.isTableConstraint .definedColumn
    ((recognizes_untilTerminator n).before (E := E))
  have whole := choose_avoiding named.pred (choose_avoiding constrained.pred column nofun) nofun
  rw [Grammar.avoiding_add, Grammar.avoiding_avoiding, Grammar.avoiding_anyOf_mul, ← add_assoc]
    at whole
  · rw [run_addition .definedColumn]
    exact whole.fits (by decide)
  · exact fun t ht => Terminal.eq_false_of_disjoint (by decide) ht

theorem recognizes_removal (n : Nat) :
    Recognizes n (run [removal]) Grammar.removal
      ⟨isName, fun t => !among [.punctuation .semicolon] t, false⟩ := by
  have named := lead (among [.keyword .COLUMN]) .removedName (recognizes_name n .removedColumn)
  have part := lead Grammar.isRemovedPart .removedName (recognizes_untilTerminator n)
  have whole := choose_avoiding named.pred
    (choose_avoiding part.pred (recognizes_name n .removedName) nofun) nofun
  rw [Grammar.avoiding_add, Grammar.avoiding_avoiding, Grammar.avoiding_anyOf_mul, ← add_assoc]
    at whole
  · rw [run_removal .removedName]
    exact whole.fits (by decide)
  · exact fun t ht => Terminal.eq_false_of_disjoint (by decide) ht

theorem recognizes_alteration (hU : UnclosedBefore E U) (n : Nat) :
    RecognizesBefore E n (run [keyword .TABLE .alterTable, name .alteredName, alteration])
      (Grammar.keyword .TABLE * Grammar.name *
        (Grammar.keyword .ADD * Grammar.addition (Grammar.mark .leftParen * U) +
          Grammar.keyword .DROP * Grammar.removal))
      ⟨among [.keyword .TABLE], fun t => !among [.punctuation .semicolon] t, false⟩ := by
  have added := lead (among [.keyword .ADD]) .alteration (recognizes_addition hU n)
  have dropped := lead (among [.keyword .DROP]) .alteration ((recognizes_removal n).before (E := E))
  have either := choose added.pred dropped.pred nofun (by decide)
  rw [← run_alteration] at either
  have whole := (recognizes_keyword n .alterTable .TABLE).cons
    ((recognizes_name n .alteredName).cons either (by decide)) (by decide)
  rw [← mul_assoc] at whole
  exact whole.fits (by decide)

end

/-- Where all groups are closed, a table that is altered is left before a semicolon. -/
theorem run_alteration_of_mem {ts : List Terminal}
    (h : .keyword .ALTER :: ts ∈ Grammar.tableStatement 0) (rest : List Terminal) :
    run [keyword .TABLE .alterTable, name .alteredName, alteration]
      (ts ++ .punctuation .semicolon :: rest) = .accepted (.punctuation .semicolon :: rest) := by
  have recognizes := recognizes_alteration unclosedBefore_rest (ts.length + 1)
  rw [mul_zero] at recognizes
  simp only [Grammar.tableStatement, Grammar.create, Grammar.alter, mul_assoc, Language.mem_add,
    Grammar.cons_mem_keyword_mul_iff] at h
  rcases h with ⟨hk, -⟩ | ⟨-, h⟩
  · cases hk
  · rw [← mul_assoc] at h
    refine recognizes.complete h (Nat.lt_succ_self _) (List.cons_ne_nil _ _) ?_
    intro t ht
    obtain rfl := Option.some.inj ht
    rfl

/-! ### Whole statements -/

/-- **A statement that creates or alters a table** is accepted just if it is a word of the grammar
up to its end or up to a semicolon.  A last group that is unclosed is a group only up to the end. -/
theorem accepts_tableStatement_iff {k : Keyword} (ts : List Terminal)
    (hk : k ∈ [.CREATE, .ALTER]) :
    (∃ rest, run [statement] (.keyword k :: ts) = .accepted rest) ↔
      .keyword k :: ts ∈ Grammar.tableStatement Grammar.openGroup +
        Grammar.beforeSemicolon (Grammar.tableStatement 0) := by
  simp only [Grammar.tableStatement, Grammar.create, Grammar.alter, mul_assoc,
    Grammar.beforeSemicolon_add, Language.mem_add, Grammar.cons_mem_beforeSemicolon_iff,
    Grammar.cons_mem_keyword_mul_iff]
  simp only [List.mem_cons, List.not_mem_nil, or_false] at hk
  rcases hk with rfl | rfl
  · have accepts := run_statement_accepts_iff (k := .CREATE) rfl recognizes_creation (by decide) ts
    rw [Grammar.terminated, Language.mem_add] at accepts
    simpa [mul_assoc] using accepts
  · have accepts := run_statement_accepts_iff_of_ends (k := .ALTER) rfl
      (recognizes_alteration unclosedBefore_end) (recognizes_alteration unclosedBefore_rest)
      (by decide) ts
    rw [← Grammar.openGroup, mul_zero, Language.mem_add] at accepts
    simpa [mul_assoc] using accepts

end SqlChecker.Goal
