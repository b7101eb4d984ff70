import SqlChecker.Proofs.Matching.Definitions
import SqlChecker.Proofs.Matching.Prefix
import SqlChecker.Proofs.Verdict

/-! # The first statement

Whether tokens are valid is decided by their first statement, and what comes after the first
semicolon is not looked at, with one exception: a group in parentheses that is open before the
semicolon goes on after it.  `parse_eq_iff_not_endsInGroup` says that there is no other.
-/
namespace SqlChecker
namespace Goal

/-- The terminals are all taken, and a group in parentheses is open behind them. -/
def EndsInGroup (ts : List Terminal) : Prop :=
  ∃ outer goals, left? [statement] ts = some (group outer :: goals)

variable {goals next : List Goal} {t : Terminal} {ts : List Terminal}

/-- The goals that are left of a statement are a stack with the terminator behind it. -/
theorem isStack_of_left?_statement (hts : .punctuation .semicolon ∉ ts)
    (h : left? [statement] (t :: ts) = some next) :
    ∃ goals, next = goals ++ [terminator] ∧ isStack goals = true := by
  cases hb : body? t with
  | none =>
    have hm : moveBefore [statement] (t :: ts) = .fail .unknownStatement := by
      simp [moveBefore_cons, step, Step.begin?, hb]
    rw [left?, if_neg (List.cons_ne_nil t ts)] at h
    split at h <;> simp_all
  | some body =>
    have hm : moveBefore [statement] (t :: ts) = .take 1 (body ++ [terminator]) := by
      simp [moveBefore_cons, step, Step.begin?, hb]
    rw [left?_of_take hm] at h
    exact isStack_of_left? (isStack_body hb) hts h

/-- Only the first goal of a stack may be greedy. -/
theorem mayWait_or_isGreedy {g : Goal} (h : isStack goals = true) (hg : g ∈ goals) :
    g.mayWait = true ∨ g.isGreedy = true ∧ ∃ below, goals = g :: below := by
  cases goals with
  | nil => cases hg
  | cons g' below =>
    simp only [isStack, Bool.and_eq_true, Bool.or_eq_true, List.all_eq_true] at h
    rcases List.mem_cons.mp hg with rfl | hmem
    · exact h.1.imp_right fun hgreedy => ⟨hgreedy, below, rfl⟩
    · exact .inl (h.2 g hmem)

/-- Where no group is in front, all goals of a stack are such as see the end in a semicolon. -/
theorem mayWait_or_eq_untilTerminator {g : Goal} (h : isStack goals = true)
    (hgroup : ∀ outer below, goals ≠ group outer :: below) (hg : g ∈ goals) :
    g.mayWait = true ∨ g = untilTerminator := by
  refine (mayWait_or_isGreedy h hg).imp_right ?_
  rintro ⟨hgreedy, below, rfl⟩
  cases g
  case group outer => exact absurd rfl (hgroup outer below)
  case untilTerminator => rfl
  all_goals cases hgreedy

/-- **Up to a semicolon outside of groups** a statement is rejected at the same place, or accepted,
whatever comes after the semicolon. -/
theorem run_statement_semicolon (hts : .punctuation .semicolon ∉ ts) (hg : ¬ EndsInGroup ts) :
    (∃ e taken left, ts = taken ++ left ∧ ∀ rest,
      run [statement] (ts ++ .punctuation .semicolon :: rest) =
        .rejected e (left ++ .punctuation .semicolon :: rest)) ∨
    ∀ rest, ∃ rest', run [statement] (ts ++ .punctuation .semicolon :: rest) = .accepted rest' := by
  cases hl : left? [statement] ts with
  | none =>
    obtain ⟨taken, left, he, ⟨e, hrun⟩ | hrun⟩ := run_append_of_left?_eq_none hl
    · exact .inl ⟨e, taken, left, he, fun rest => hrun _ (follows_semicolon rest)⟩
    · exact .inr fun rest => ⟨_, hrun _ (follows_semicolon rest)⟩
  | some next =>
    cases ts with
    | nil =>
      refine .inl ⟨.unknownStatement, [], [], rfl, fun rest => ?_⟩
      rw [List.nil_append, run_statement_cons]
      rfl
    | cons t ts =>
      obtain ⟨goals, rfl, hstack⟩ :=
        isStack_of_left?_statement (fun h => hts (List.mem_cons_of_mem t h)) hl
      have hrun (rest : List Terminal) := run_append_of_left? hl (follows_semicolon rest)
      have hgroup : ∀ outer below, goals ≠ group outer :: below := by
        rintro outer below rfl
        exact hg ⟨outer, _, hl⟩
      have refuses : ∀ g ∈ goals, Refuses (.punctuation .semicolon) g := fun g hmem =>
        refuses_semicolon (mayWait_or_eq_untilTerminator hstack hgroup hmem)
      rcases run_of_refuses [terminator] refuses with ⟨e, he⟩ | hs
      · refine .inl ⟨e, t :: ts, [], (List.append_nil _).symm, fun rest => ?_⟩
        exact (hrun rest).trans (he rest)
      · refine .inr fun rest => ⟨rest, ?_⟩
        rw [hrun, hs, run_terminator_eq_accepted_iff]
        exact .inr rfl

/-! ### Inside a group -/

/-- The semicolon is passed over by a group, like any other terminal. -/
theorem run_append_of_endsInGroup (hts : .punctuation .semicolon ∉ ts) (hg : EndsInGroup ts) :
    ∃ outer waiting, waiting.all mayWait = true ∧ ∀ rest,
      run [statement] (ts ++ .punctuation .semicolon :: rest) =
        run (group outer :: waiting ++ [terminator]) rest := by
  obtain ⟨outer, goals, hl⟩ := hg
  cases ts with
  | nil =>
    rw [left?_nil] at hl
    cases hl
  | cons t ts =>
    obtain ⟨stack, he, hstack⟩ :=
      isStack_of_left?_statement (fun h => hts (List.mem_cons_of_mem t h)) hl
    cases stack with
    | nil => cases he
    | cons g waiting =>
      obtain ⟨rfl, rfl⟩ := List.cons.inj he
      simp only [isStack, Bool.and_eq_true] at hstack
      refine ⟨outer, waiting, hstack.2, fun rest => ?_⟩
      rw [run_append_of_left? hl (follows_semicolon rest)]
      exact run_cons_congr (run_group_other outer rest (by decide)) _

/-- At the end every goal is skipped, or one is given up. -/
theorem run_at_end (goals : List Goal) :
    (∃ e, run goals [] = .rejected e []) ∨
      run goals [] = .accepted [] ∧ ∀ g ∈ goals, g.step none none none = .skip := by
  induction goals with
  | nil => exact .inr ⟨congrFun run_nil [], fun g hg => absurd hg List.not_mem_nil⟩
  | cons g goals ih =>
    rw [run_cons, stepBefore_nil]
    cases hs : g.step none none none with
    | fail e => exact .inl ⟨e, rfl⟩
    | take count next => exact absurd rfl (step_eq_take hs).1
    | skip => exact ih.imp_right fun h => ⟨h.1, List.forall_mem_cons.mpr ⟨hs, h.2⟩⟩

/-- **A closing parenthesis too many.**  If all is accepted where a group is still open, then it is
rejected with one parenthesis more than close the group. -/
theorem run_rightParens {waiting : List Goal} (hw : waiting.all mayWait = true)
    (h : run (waiting ++ [terminator]) [] = .accepted []) (outer : Nat) :
    ∃ e rest, run (group outer :: waiting ++ [terminator])
      (List.replicate (outer + 1) (.punctuation .rightParen) ++ [.punctuation .rightParen]) =
        .rejected e rest := by
  have skipped : ∀ g ∈ waiting ++ [terminator], g.step none none none = .skip := by
    rcases run_at_end (waiting ++ [terminator]) with ⟨e, he⟩ | ⟨-, hs⟩
    · rw [h] at he
      cases he
    · exact hs
  have refuses : ∀ g ∈ waiting, Refuses (.punctuation .rightParen) g := fun g hg =>
    refuses_rightParen (List.all_eq_true.mp hw g hg) (skipped g (List.mem_append_left _ hg))
  rw [List.cons_append, run_group_rightParens]
  rcases run_of_refuses [terminator] refuses with ⟨e, he⟩ | hs
  · exact ⟨e, _, he []⟩
  · refine ⟨.terminator, [.punctuation .rightParen], ?_⟩
    rw [hs, run_cons]
    rfl

end Goal

/-! ### Tokens -/

variable {pre : List Token} {semicolon : Token}

theorem terminals_append (hsemi : semicolon.kind = .punctuation .semicolon) (ts : List Token) :
    (pre ++ semicolon :: ts).map Token.terminal =
      pre.map Token.terminal ++ .punctuation .semicolon :: ts.map Token.terminal := by
  rw [List.map_append, List.map_cons, Token.terminal_eq_punctuation_iff.mpr hsemi]

theorem semicolon_notMem_terminals (h : ∀ t ∈ pre, t.kind ≠ .punctuation .semicolon) :
    .punctuation .semicolon ∉ pre.map Token.terminal := by
  intro hmem
  obtain ⟨t, ht, he⟩ := List.mem_map.mp hmem
  exact h t ht (Token.terminal_eq_punctuation_iff.mp he)

theorem fault?_append (hpre : ∀ t ∈ pre, t.fault? = none)
    (hsemi : semicolon.kind = .punctuation .semicolon) (ts : List Token)
    (hts : ∀ t ∈ ts, t.fault? = none) : ∀ t ∈ pre ++ semicolon :: ts, t.fault? = none := by
  have : semicolon.fault? = none := by rw [Token.fault?, hsemi]
  simpa [or_imp, forall_and, this] using And.intro hpre hts

/-- Without an open group nothing after the semicolon matters. -/
theorem parse_eq_of_not_endsInGroup (hpre : ∀ t ∈ pre, t.fault? = none)
    (hsemi : semicolon.kind = .punctuation .semicolon)
    (hfirst : ∀ t ∈ pre, t.kind ≠ .punctuation .semicolon)
    (hg : ¬ Goal.EndsInGroup (pre.map Token.terminal)) {ts : List Token}
    (hts : ∀ t ∈ ts, t.fault? = none) :
    parse (pre ++ semicolon :: ts) = parse (pre ++ [semicolon]) := by
  have hall := fault?_append hpre hsemi ts hts
  have hone := fault?_append hpre hsemi [] (by simp)
  rcases Goal.run_statement_semicolon (semicolon_notMem_terminals hfirst) hg with
    ⟨e, taken, left, he, hrun⟩ | hrun
  · have hlen : pre.length = taken.length + left.length := by
      simpa using congrArg List.length he
    rw [parse_of_rejected hall (by rw [terminals_append hsemi]; exact hrun _),
      parse_of_rejected hone (by rw [terminals_append hsemi]; exact hrun _)]
    -- The place of the error is counted from the front.
    have position (ts : List Token) : (pre ++ semicolon :: ts).length -
        (left ++ .punctuation .semicolon :: ts.map Token.terminal).length = taken.length := by
      simp only [List.length_append, List.length_cons, List.length_map]
      omega
    rw [position ts, position [], List.append_cons, Verdict.syntaxProblem_append]
    rw [List.length_append, List.length_singleton]
    omega
  · obtain ⟨rest, hr⟩ := hrun (ts.map Token.terminal)
    obtain ⟨rest', hr'⟩ := hrun []
    rw [parse_of_accepted hall (by rw [terminals_append hsemi]; exact hr),
      parse_of_accepted hone (by rw [terminals_append hsemi]; exact hr')]

/-- A token that a group passes over. -/
def nameOnLine (line : Nat) : Token := ⟨.identifier, "", line, 1, ⟨0, 0⟩⟩

/-- A token that closes a group. -/
def closing : Token := ⟨.punctuation .rightParen, ")", 1, 1, ⟨0, 1⟩⟩

/-- In an open group something after the semicolon matters: where all would be accepted, a closing
parenthesis too many, and elsewhere a last token that stands on another line. -/
theorem exists_parse_ne_of_endsInGroup (hpre : ∀ t ∈ pre, t.fault? = none)
    (hsemi : semicolon.kind = .punctuation .semicolon)
    (hfirst : ∀ t ∈ pre, t.kind ≠ .punctuation .semicolon)
    (hg : Goal.EndsInGroup (pre.map Token.terminal)) :
    ∃ ts : List Token, (∀ t ∈ ts, t.fault? = none) ∧
      parse (pre ++ semicolon :: ts) ≠ parse (pre ++ [semicolon]) := by
  obtain ⟨outer, waiting, hw, hrun⟩ :=
    Goal.run_append_of_endsInGroup (semicolon_notMem_terminals hfirst) hg
  have hone := fault?_append hpre hsemi [] (by simp)
  have hrun' (ts : List Token) :
      Goal.run [.statement] ((pre ++ semicolon :: ts).map Token.terminal) =
      Goal.run (.group outer :: waiting ++ [.terminator]) (ts.map Token.terminal) := by
    rw [terminals_append hsemi, hrun]
  have hend : Goal.run (.group outer :: waiting ++ [.terminator]) [] =
      Goal.run (waiting ++ [.terminator]) [] :=
    Goal.run_cons_of_accepted (Goal.run_group_nil outer) _
  rcases Goal.run_at_end (waiting ++ [.terminator]) with ⟨e, he⟩ | ⟨hacc, -⟩
  -- The error is reported at the last token, which the group takes.
  · refine ⟨[nameOnLine (semicolon.line + 1)], by simp [nameOnLine, Token.fault?], fun h => ?_⟩
    have hall := fault?_append hpre hsemi [nameOnLine (semicolon.line + 1)]
      (by simp [nameOnLine, Token.fault?])
    have hname : Goal.run (.group outer :: waiting ++ [.terminator]) [.identifier (.ofText [])] =
        .rejected e [] := by
      rw [← he, ← hend]
      exact Goal.run_cons_congr (Goal.run_group_other outer [] (by decide)) _
    rw [parse_of_rejected hall ((hrun' _).trans hname),
      parse_of_rejected hone ((hrun' []).trans (hend.trans he)), List.append_cons] at h
    have hline := congrArg Diagnostic.line (List.cons.inj (Report.mk.inj h)).1
    rw [List.length_nil, Nat.sub_zero, Nat.sub_zero, Verdict.line_syntaxProblem_length,
      Verdict.line_syntaxProblem_length] at hline
    exact absurd hline (Nat.succ_ne_self semicolon.line)
  -- All is accepted at the semicolon, and so there is a parenthesis to have too many of.
  · obtain ⟨e, rest, hr⟩ := Goal.run_rightParens hw hacc outer
    refine ⟨List.replicate (outer + 1) closing ++ [closing], ?_, fun h => ?_⟩
    · simp [closing, Token.fault?]
    · have hall := fault?_append hpre hsemi (List.replicate (outer + 1) closing ++ [closing])
        (by simp [closing, Token.fault?])
      have hmap : (List.replicate (outer + 1) closing ++ [closing]).map Token.terminal =
          List.replicate (outer + 1) (.punctuation .rightParen) ++ [.punctuation .rightParen] := by
        rw [List.map_append, List.map_replicate]
        rfl
      rw [parse_of_rejected hall ((hrun' _).trans (hmap ▸ hr)),
        parse_of_accepted hone ((hrun' []).trans (hend.trans hacc))] at h
      cases h

/-- **What comes after the first semicolon does not matter**, just if no group is open there. -/
theorem parse_eq_iff_not_endsInGroup (hpre : ∀ t ∈ pre, t.fault? = none)
    (hsemi : semicolon.kind = .punctuation .semicolon)
    (hfirst : ∀ t ∈ pre, t.kind ≠ .punctuation .semicolon) :
    (∀ ts ts' : List Token, (∀ t ∈ ts, t.fault? = none) → (∀ t ∈ ts', t.fault? = none) →
      parse (pre ++ semicolon :: ts) = parse (pre ++ semicolon :: ts')) ↔
    ¬ Goal.EndsInGroup (pre.map Token.terminal) := by
  constructor
  · intro h hg
    obtain ⟨ts, hts, hne⟩ := exists_parse_ne_of_endsInGroup hpre hsemi hfirst hg
    exact hne (h ts [] hts (by simp))
  · intro hg ts ts' hts hts'
    rw [parse_eq_of_not_endsInGroup hpre hsemi hfirst hg hts,
      parse_eq_of_not_endsInGroup hpre hsemi hfirst hg hts']

/-- `DROP TABLE t;` is judged alike with and without a parenthesis after it. -/
theorem parse_dropTable_semicolon :
    parse ([⟨.keyword .DROP, "DROP", 1, 1, ⟨0, 4⟩⟩, ⟨.keyword .TABLE, "TABLE", 1, 2, ⟨5, 10⟩⟩,
      ⟨.identifier, "t", 1, 3, ⟨11, 12⟩⟩] ++ ⟨.punctuation .semicolon, ";", 1, 4, ⟨12, 13⟩⟩ ::
        [closing]) =
    parse ([⟨.keyword .DROP, "DROP", 1, 1, ⟨0, 4⟩⟩, ⟨.keyword .TABLE, "TABLE", 1, 2, ⟨5, 10⟩⟩,
      ⟨.identifier, "t", 1, 3, ⟨11, 12⟩⟩] ++ ⟨.punctuation .semicolon, ";", 1, 4, ⟨12, 13⟩⟩ ::
        []) := by
  refine (parse_eq_iff_not_endsInGroup (by decide) rfl (by decide)).mpr ?_ _ _ (by decide)
    (by decide)
  rintro ⟨outer, goals, h⟩
  have hl : Goal.left? [.statement] [.keyword .DROP, .keyword .TABLE, .identifier .other] =
      some [.qualifier, .terminator] := by
    cbv
  cases hl.symm.trans h

/-- `CREATE TABLE t (a INT CHECK ( ;` is not valid, but it is if two parentheses come after it. -/
theorem exists_parse_semicolon_ne :
    ∃ (pre ts ts' : List Token) (semicolon : Token),
      (∀ t ∈ pre, t.fault? = none ∧ t.kind ≠ .punctuation .semicolon) ∧
      semicolon.kind = .punctuation .semicolon ∧
      (∀ t ∈ ts, t.fault? = none) ∧ (∀ t ∈ ts', t.fault? = none) ∧
      parse (pre ++ semicolon :: ts) ≠ parse (pre ++ semicolon :: ts') := by
  refine ⟨[⟨.keyword .CREATE, "CREATE", 1, 1, ⟨0, 6⟩⟩, ⟨.keyword .TABLE, "TABLE", 1, 2, ⟨7, 12⟩⟩,
    ⟨.identifier, "t", 1, 3, ⟨13, 14⟩⟩, ⟨.punctuation .leftParen, "(", 1, 4, ⟨15, 16⟩⟩,
    ⟨.identifier, "a", 1, 4, ⟨16, 17⟩⟩, ⟨.identifier, "INT", 1, 5, ⟨18, 21⟩⟩,
    ⟨.identifier, "CHECK", 1, 6, ⟨22, 27⟩⟩, ⟨.punctuation .leftParen, "(", 1, 7, ⟨28, 29⟩⟩],
    [], [closing, closing], ⟨.punctuation .semicolon, ";", 1, 7, ⟨30, 31⟩⟩,
    by decide, rfl, by decide, by decide, ?_⟩
  decide +kernel

end SqlChecker
