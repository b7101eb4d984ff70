import SqlChecker.Proofs.Grammar.Statement
import SqlChecker.Proofs.Recognition.Expression

/-! # Queries are recognized

The columns of a query, the tables it reads from, and the clauses after them.  A join is the one
part that needs more than a terminal to begin: its words are taken all at once or not at all.
-/
namespace SqlChecker.Goal
open Matcher Terminal RecognizesBefore Computability

variable (n : Nat)

/-! ### Columns -/

/-- How a column with another name begins and goes on. -/
def columnProfile : Profile where
  first := expressionProfile.first
  extend t := expressionProfile.extend t || among [.keyword .AS] t || isIdentifier t
  empty := false

/-- How a list of columns begins and goes on. -/
def columnsProfile : Profile where
  first := expressionProfile.first
  extend t := columnProfile.extend t || among [.punctuation .comma] t
  empty := false

theorem recognizes_column (missing : SyntaxError) :
    Recognizes n (run [expression missing, otherName]) (Grammar.expression * Grammar.otherName)
      columnProfile :=
  ((recognizes_expression n missing).cons (recognizes_otherName n) (by decide)).fits (by decide)

theorem recognizes_columns : Recognizes n (run [columns]) Grammar.columns columnsProfile := by
  have more := repeated (takes_takeOne (among [.punctuation .comma]))
    (recognizes_column n .columnAfterComma) run_moreColumns (by decide)
  have listed := append (recognizes_column n .column) more.pred (by decide)
  have all := lead (among [.operator .star]) .column (done (n := n))
  have whole := choose_avoiding all.pred listed nofun
  rw [mul_one] at whole
  rw [run_columns]
  exact whole.fits (by decide)

/-! ### Joins -/

theorem mem_join_iff {w : List Terminal} :
    w ∈ Grammar.join ↔ w = [.keyword .JOIN] ∨ w = [.keyword .INNER, .keyword .JOIN] ∨
      ∃ side, (side = .keyword .LEFT ∨ side = .keyword .RIGHT) ∧
        (w = [side, .keyword .JOIN] ∨ w = [side, .keyword .OUTER, .keyword .JOIN]) := by
  simp only [Grammar.join, Grammar.keyword, mul_assoc, add_mul, Grammar.optional_mul, mul_add,
    Language.mem_add, Grammar.mem_among_singleton_mul_iff, Grammar.mem_among_singleton_iff,
    exists_eq_left, or_assoc, or_and_right, exists_or, ↓existsAndEq, true_and]

/-- The words taken for a join are one of the six forms it may have. -/
theorem stepJoins_eq_take {ts : List Terminal} {count : Nat} {next : List Goal}
    (h : stepJoins ts[0]? ts[1]? ts[2]? = .take count next) :
    ∃ w ∈ Grammar.join, ts = w ++ ts.drop count := by
  unfold stepJoins at h
  split_ifs at h with hjoin hinner hside hnext hnext <;> obtain ⟨rfl, -⟩ := Step.take.inj h
  · refine ⟨[.keyword .JOIN], mem_join_iff.mpr (by simp), ?_⟩
    rcases ts with - | ⟨t, ts⟩ <;> simp_all
  · refine ⟨[.keyword .INNER, .keyword .JOIN], mem_join_iff.mpr (by simp), ?_⟩
    rcases ts with - | ⟨t, - | ⟨u, ts⟩⟩ <;> simp_all
  · rcases ts with - | ⟨t, - | ⟨u, ts⟩⟩
    · simp at hnext
    · simp at hnext
    · obtain rfl : u = .keyword .JOIN := by simpa using hnext
      exact ⟨[t, .keyword .JOIN],
        mem_join_iff.mpr (.inr (.inr ⟨t, by simpa using hside, .inl rfl⟩)), rfl⟩
  · rcases ts with - | ⟨t, - | ⟨u, - | ⟨v, ts⟩⟩⟩
    · simp at hnext
    · simp at hnext
    · simp at hnext
    · obtain ⟨rfl, rfl⟩ : u = .keyword .OUTER ∧ v = .keyword .JOIN := by simpa using hnext
      exact ⟨[t, .keyword .OUTER, .keyword .JOIN],
        mem_join_iff.mpr (.inr (.inr ⟨t, by simpa using hside, .inr rfl⟩)), rfl⟩

theorem takes_takeJoin :
    Takes takeJoin Grammar.join
      (among [.keyword .JOIN, .keyword .INNER, .keyword .LEFT, .keyword .RIGHT]) where
  sound {ts rest} h := by
    rw [takeJoin] at h
    split at h
    · next count next hs =>
      obtain rfl := Option.some.inj h
      exact stepJoins_eq_take hs
    · cases h
  complete {w rest} h := by
    rcases mem_join_iff.mp h with rfl | rfl | ⟨side, rfl | rfl, rfl | rfl⟩ <;> rfl
  first {w} h := by
    rcases mem_join_iff.mp h with rfl | rfl | ⟨side, rfl | rfl, rfl | rfl⟩ <;>
      exact ⟨_, _, rfl, rfl⟩

/-- A table that is joined, with the condition it is joined by. -/
theorem recognizes_joined :
    Recognizes n (run ([name .joinTable, otherName, keyword .ON .joinCondition] ++ condition))
      (Grammar.name * Grammar.otherName * Grammar.keyword .ON * Grammar.condition)
      ⟨isName, conditionProfile.extend, false⟩ := by
  have table := (recognizes_name n .joinTable).cons ((recognizes_otherName n).cons
    (recognizes_keyword n .joinCondition .ON) (by decide)) (by decide)
  have whole := append table (recognizes_condition n) (by decide)
  rw [← mul_assoc Grammar.name] at whole
  exact whole.fits (by decide)

theorem recognizes_joins :
    Recognizes n (run [joins]) (Grammar.join *
      (Grammar.name * Grammar.otherName * Grammar.keyword .ON * Grammar.condition))∗
      ⟨among [.keyword .JOIN, .keyword .INNER, .keyword .LEFT, .keyword .RIGHT],
        fun t => among [.keyword .JOIN, .keyword .INNER, .keyword .LEFT, .keyword .RIGHT] t ||
          conditionProfile.extend t, true⟩ :=
  (repeated takes_takeJoin (recognizes_joined n) run_joins (by decide)).pred

/-! ### Clauses -/

theorem recognizes_whereClause :
    Recognizes n (run [whereClause]) (Grammar.optional Grammar.whereClause)
      ⟨among [.keyword .WHERE], fun t => among [.keyword .WHERE] t || conditionProfile.extend t,
        true⟩ := by
  rw [run_whereClause]
  exact (maybe _ (recognizes_condition n)).pred

theorem recognizes_havingClause :
    Recognizes n (run [havingClause])
      (Grammar.optional (Grammar.keyword .HAVING * Grammar.condition))
      ⟨among [.keyword .HAVING], fun t => among [.keyword .HAVING] t || conditionProfile.extend t,
        true⟩ := by
  rw [run_havingClause]
  exact (maybe _ (recognizes_condition n)).pred

theorem recognizes_groupClause :
    Recognizes n (run [groupClause]) (Grammar.optional Grammar.groupClause)
      ⟨among [.keyword .GROUP],
        fun t => among [.keyword .GROUP, .keyword .HAVING] t || conditionProfile.extend t ||
          columnsProfile.extend t, true⟩ := by
  have grouped := (recognizes_keyword n .groupBy .BY).cons
    ((recognizes_columns n).cons (recognizes_havingClause n) (by decide)) (by decide)
  have whole := maybe (among [.keyword .GROUP]) grouped
  rw [← mul_assoc, ← mul_assoc] at whole
  rw [run_groupClause]
  exact whole.pred.fits (by decide)

theorem recognizes_orderColumn (missing : SyntaxError) :
    Recognizes n (run (orderColumn missing))
      (Grammar.name * Grammar.optional (Grammar.keyword .ASC + Grammar.keyword .DESC))
      ⟨isName, among [.punctuation .dot, .keyword .ASC, .keyword .DESC], false⟩ := by
  have direction := recognizes_optional n [.keyword .ASC, .keyword .DESC]
  rw [Grammar.anyOf_among_cons] at direction
  exact ((recognizes_name n missing).cons direction (by decide)).fits (by decide)

theorem recognizes_orderClause :
    Recognizes n (run [orderClause]) (Grammar.optional Grammar.orderClause)
      ⟨among [.keyword .ORDER], among [.keyword .ORDER, .punctuation .comma, .punctuation .dot,
        .keyword .ASC, .keyword .DESC], true⟩ := by
  have more := repeated (takes_takeOne (among [.punctuation .comma]))
    (recognizes_orderColumn n .orderColumnAfterComma) run_moreOrderColumns (by decide)
  have listed := append (recognizes_orderColumn n .orderColumn) more.pred (by decide)
  have whole := maybe (among [.keyword .ORDER])
    ((recognizes_keyword n .orderBy .BY).cons listed (by decide))
  rw [← mul_assoc] at whole
  rw [run_orderClause]
  exact whole.pred.fits (by decide)

theorem recognizes_limitClause :
    Recognizes n (run [limitClause]) (Grammar.optional Grammar.limitClause)
      ⟨among [.keyword .LIMIT], among [.keyword .LIMIT, .keyword .OFFSET, .punctuation .comma],
        true⟩ := by
  have offset := lead (among [.keyword .OFFSET]) .offset (recognizes_number n .offset)
  have count := maybe (among [.punctuation .comma]) (recognizes_number n .limitAfterComma)
  have extent := choose offset count nofun (by decide)
  rw [Grammar.add_optional, ← run_limitExtent] at extent
  have whole := maybe (among [.keyword .LIMIT])
    ((recognizes_number n .limit).cons extent.pred (by decide))
  rw [← mul_assoc] at whole
  rw [run_limitClause]
  exact whole.pred.fits (by decide)

/-! ### Sources -/

/-- A part that may be missing only where the statement ends. -/
theorem recognizes_unlessEnded {n : Nat} {m : Matcher} {L : Language Terminal} {p : Profile}
    (h : Recognizes n m L p) (hp : p.first (.punctuation .semicolon) = false) :
    Recognizes n (unlessEnded m) (Grammar.optional L)
      ⟨p.first, fun t => !among [.punctuation .semicolon] t || p.extend t, true⟩ where
  sound {ts rest} hl hE hr := by
    rw [unlessEnded] at hr
    split at hr
    · exact ⟨[], Or.inl rfl, by simpa using hr⟩
    · obtain ⟨w, hw, rfl⟩ := h.sound hl hE hr
      exact ⟨w, Or.inr hw, rfl⟩
  complete {w rest} hw hl hE hrest := by
    rw [unlessEnded]
    cases w with
    -- Nothing at all is left out only before a semicolon or the end.
    | nil =>
      cases rest with
      | nil => rfl
      | cons t rest =>
        have ht := hrest t rfl
        simp only [Bool.or_eq_false_iff, Bool.not_eq_false', among_eq_true_iff,
          List.mem_singleton] at ht
        rw [ht.1]
        rfl
    | cons t w =>
      have hL : t :: w ∈ L := (Grammar.mem_optional_iff.mp hw).resolve_left (by simp)
      have ht : t ≠ .punctuation .semicolon := by
        rintro rfl
        rw [h.first hL hl] at hp
        exact absurd hp (by decide)
      have hends : ¬ endsStatement (t :: w ++ rest).head? = true := by
        simp [endsStatement, ht]
      rw [if_neg hends]
      exact h.complete hL hl hE (hrest.mono fun u hu => by simp [hu])
  first {t w} hw hl := h.first ((Grammar.mem_optional_iff.mp hw).resolve_left (by simp)) hl
  empty _ _ := rfl

theorem recognizes_source :
    Recognizes n (run [source]) (Grammar.optional Grammar.source)
      ⟨among [.keyword .FROM], fun t => !among [.punctuation .semicolon] t, true⟩ := by
  have clauses := (recognizes_whereClause n).cons ((recognizes_groupClause n).cons
    ((recognizes_orderClause n).cons (recognizes_limitClause n) (by decide)) (by decide))
    (by decide)
  have tables := (recognizes_name n .sourceTable).cons ((recognizes_otherName n).cons
    ((recognizes_joins n).cons clauses (by decide)) (by decide)) (by decide)
  have whole := recognizes_unlessEnded (lead (among [.keyword .FROM]) .source tables) (by decide)
  rw [run_source, Grammar.source, Grammar.tables]
  simp only [mul_assoc] at whole ⊢
  exact whole.pred.fits (by decide)

end SqlChecker.Goal
