import SqlChecker.Proofs.Findings
import SqlChecker.Proofs.FirstStatement

/-! # The terminator may be missing

A statement that is followed by nothing is judged as if a semicolon followed.  The goals that are
left at its end see the end in a semicolon, a group apart, which takes the semicolon and is then at
the end (`endsAlike_statement`).  So a semicolon at the end changes nothing but the place of an
error that is reported there (`parse_append_terminator`).
-/
namespace SqlChecker
namespace Goal

/-- How matching ends with nothing behind some terminals, and how with a semicolon behind them. -/
inductive EndsAlike : Outcome → Outcome → Prop where
  | accepted (rest rest' : List Terminal) : EndsAlike (.accepted rest) (.accepted rest')
  /-- The same is left over, and the semicolon behind it. -/
  | rejected (e : SyntaxError) (rest : List Terminal) :
      EndsAlike (.rejected e rest) (.rejected e (rest ++ [.punctuation .semicolon]))
  /-- Nothing is left over, and the semicolon is taken. -/
  | rejectedAtEnd (e : SyntaxError) : EndsAlike (.rejected e []) (.rejected e [])

variable {goals : List Goal} {ts : List Terminal}

/-- The end is like the end. -/
theorem endsAlike_at_end (goals : List Goal) : EndsAlike (run goals []) (run goals []) := by
  rcases run_at_end goals with ⟨e, he⟩ | ⟨hacc, -⟩
  · rw [he]
    exact .rejectedAtEnd e
  · rw [hacc]
    exact .accepted [] []

/-- Goals that see the end in a semicolon end alike, with the terminator behind them. -/
theorem endsAlike_of_mayWait (h : ∀ g ∈ goals, g.mayWait = true ∨ g = untilTerminator) :
    EndsAlike (run (goals ++ [terminator]) [])
      (run (goals ++ [terminator]) [.punctuation .semicolon]) := by
  induction goals with
  | nil =>
    have hend : run [terminator] [] = .accepted [] :=
      run_terminator_eq_accepted_iff.mpr (.inl ⟨rfl, rfl⟩)
    have hsemicolon : run [terminator] [.punctuation .semicolon] = .accepted [] :=
      run_terminator_eq_accepted_iff.mpr (.inr rfl)
    rw [List.nil_append, hend, hsemicolon]
    exact .accepted [] []
  | cons g goals ih =>
    obtain ⟨hg, hgoals⟩ := List.forall_mem_cons.mp h
    rw [List.cons_append, run_cons, run_cons, stepBefore_nil, stepBefore_cons,
      step_semicolon_eq_step_none hg]
    cases hs : g.step none none none with
    | fail e => exact .rejected e []
    | skip => exact ih hgoals
    | take count next => exact absurd rfl (step_eq_take hs).1

/-- A stack ends alike, with the terminator behind it. -/
theorem endsAlike_of_isStack (h : isStack goals = true) :
    EndsAlike (run (goals ++ [terminator]) [])
      (run (goals ++ [terminator]) [.punctuation .semicolon]) := by
  by_cases hgroup : ∃ outer below, goals = group outer :: below
  · obtain ⟨outer, below, rfl⟩ := hgroup
    have hpassed : run (group outer :: (below ++ [terminator])) [.punctuation .semicolon] =
        run (group outer :: (below ++ [terminator])) [] :=
      run_cons_congr (run_group_other outer [] (by decide)) _
    rw [List.cons_append, hpassed]
    exact endsAlike_at_end _
  · refine endsAlike_of_mayWait fun g hg => mayWait_or_eq_untilTerminator h ?_ hg
    exact fun outer below hgoals => hgroup ⟨outer, below, hgoals⟩

/-- **A statement ends alike** with nothing and with a semicolon behind it. -/
theorem endsAlike_statement (hne : ts ≠ []) (hts : .punctuation .semicolon ∉ ts) :
    EndsAlike (run [statement] ts) (run [statement] (ts ++ [.punctuation .semicolon])) := by
  cases hl : left? [statement] ts with
  | none =>
    obtain ⟨taken, left, rfl, ⟨e, hrun⟩ | hrun⟩ := run_append_of_left?_eq_none hl
    · have hend := hrun [] follows_nil
      rw [List.append_nil, List.append_nil] at hend
      rw [hend, hrun _ (follows_semicolon [])]
      exact .rejected e left
    · have hend := hrun [] follows_nil
      rw [List.append_nil] at hend
      rw [hend, hrun _ (follows_semicolon [])]
      exact .accepted _ _
  | some next =>
    obtain ⟨t, ts, rfl⟩ := List.exists_cons_of_ne_nil hne
    have hbehind : .punctuation .semicolon ∉ ts := fun h => hts (List.mem_cons_of_mem t h)
    obtain ⟨goals, rfl, hstack⟩ := isStack_of_left?_statement hbehind hl
    have hend := run_append_of_left? hl follows_nil
    rw [List.append_nil] at hend
    rw [hend, run_append_of_left? hl (follows_semicolon [])]
    exact endsAlike_of_isStack hstack

end Goal

/-! ### Tokens -/

variable {tokens : List Token} {semicolon : Token} {position : Nat} {e : SyntaxError}

namespace Verdict

theorem message_syntaxProblem (tokens : List Token) (position : Nat) (e : SyntaxError) :
    (syntaxProblem tokens position e).message =
      e.message (((tokenAt? tokens position).map Token.value).getD "") :=
  Diagnostic.message_locate ..

theorem pointsAt_syntaxProblem (tokens : List Token) (position : Nat) (e : SyntaxError) :
    (syntaxProblem tokens position e).PointsAt (tokenAt? tokens position) :=
  Diagnostic.pointsAt_locate ..

/-- At a place behind all tokens the last one is found. -/
theorem tokenAt?_length (tokens : List Token) :
    tokenAt? tokens tokens.length = tokens.getLast? := by
  rw [tokenAt?, List.getElem?_eq_none (Nat.le_refl _)]
  rfl

/-- At a token that is put behind the others, and behind it, the token is found. -/
theorem tokenAt?_append_singleton (h : tokens.length ≤ position) :
    tokenAt? (tokens ++ [semicolon]) position = some semicolon := by
  rw [tokenAt?_eq, List.length_append, List.length_singleton, Nat.add_sub_cancel,
    Nat.min_eq_right h, List.getElem?_concat_length]

end Verdict

/-- Problems of tokens without and with a semicolon behind them, the first of which is found at a
position: they say the same, and that at the same token, or both at the last one. -/
structure Diagnostic.EndsAlike (tokens : List Token) (semicolon : Token) (position : Nat)
    (d d' : Diagnostic) : Prop where
  message_eq : d'.message = d.message
  le_length : position ≤ tokens.length
  within : position < tokens.length → d' = d
  atEnd : position = tokens.length → d.PointsAt tokens.getLast? ∧ d'.PointsAt (some semicolon)

/-- A problem at a token is the same whatever is put behind the tokens. -/
theorem endsAlike_of_lt (h : position < tokens.length) (semicolon : Token) (e : SyntaxError) :
    Diagnostic.EndsAlike tokens semicolon position (Verdict.syntaxProblem tokens position e)
      (Verdict.syntaxProblem (tokens ++ [semicolon]) position e) := by
  rw [Verdict.syntaxProblem_append h]
  exact ⟨rfl, Nat.le_of_lt h, fun _ => rfl, fun heq => absurd heq (Nat.ne_of_lt h)⟩

/-- A problem at the end is told of the last token. -/
theorem endsAlike_of_length_le (he : e ≠ .unknownStatement) (h : tokens.length ≤ position)
    (semicolon : Token) :
    Diagnostic.EndsAlike tokens semicolon tokens.length
      (Verdict.syntaxProblem tokens tokens.length e)
      (Verdict.syntaxProblem (tokens ++ [semicolon]) position e) := by
  refine ⟨?_, Nat.le_refl _, fun hlt => absurd hlt (Nat.lt_irrefl _), fun _ => ⟨?_, ?_⟩⟩
  · rw [Verdict.message_syntaxProblem, Verdict.message_syntaxProblem]
    exact SyntaxError.message_eq he _ _
  · rw [← Verdict.tokenAt?_length]
    exact Verdict.pointsAt_syntaxProblem ..
  · rw [← Verdict.tokenAt?_append_singleton h]
    exact Verdict.pointsAt_syntaxProblem ..

/-- **The terminator may be missing.**  Let tokens without a fault and without a semicolon be
followed by one.  They are valid just if they are valid without it.  If they are not, there is one
problem in either case, and the two say the same.  They are found at the same token, or else at the
end: then the one points at the last token, and the other at the semicolon. -/
theorem parse_append_terminator (hne : tokens ≠ []) (hf : ∀ t ∈ tokens, t.fault? = none)
    (hfirst : ∀ t ∈ tokens, t.kind ≠ .punctuation .semicolon)
    (hsemi : semicolon.kind = .punctuation .semicolon) :
    (parse (tokens ++ [semicolon])).isValid = (parse tokens).isValid ∧
    ((parse tokens).isValid = false → ∃ position problem problem',
      Verdict.ofTokens tokens = .rejected position problem ∧
      (parse tokens).errors = [problem] ∧ (parse (tokens ++ [semicolon])).errors = [problem'] ∧
      problem.EndsAlike tokens semicolon position problem') := by
  have hf' := fault?_append hf hsemi [] (by simp)
  have hends : Goal.EndsAlike (Goal.run [.statement] (tokens.map Token.terminal))
      (Goal.run [.statement] ((tokens ++ [semicolon]).map Token.terminal)) := by
    rw [terminals_append hsemi]
    exact Goal.endsAlike_statement (by simpa using hne) (semicolon_notMem_terminals hfirst)
  generalize hr : Goal.run [.statement] (tokens.map Token.terminal) = outcome at hends
  generalize hr' : Goal.run [.statement] ((tokens ++ [semicolon]).map Token.terminal) = outcome'
    at hends
  have known {e : SyntaxError} (hr : Goal.run [.statement] (tokens.map Token.terminal) =
      .rejected e []) : e ≠ .unknownStatement := by
    rintro rfl
    exact hne (List.map_eq_nil_iff.mp (Goal.eq_of_run_unknownStatement hr).symm)
  cases hends with
  | accepted rest rest' =>
    rw [parse_of_accepted hf hr, parse_of_accepted hf' hr']
    exact ⟨rfl, fun h => absurd h (by decide)⟩
  | rejected e rest =>
    rw [parse_of_rejected hf hr, parse_of_rejected hf' hr']
    refine ⟨rfl, fun _ => ⟨_, _, _, Verdict.ofTokens_of_rejected hf hr, rfl, rfl, ?_⟩⟩
    have hplace : (tokens ++ [semicolon]).length -
        (rest ++ [Terminal.punctuation .semicolon]).length = tokens.length - rest.length := by
      rw [List.length_append, List.length_append]
      exact Nat.add_sub_add_right ..
    rw [hplace]
    cases rest with
    | nil => exact endsAlike_of_length_le (known hr) (Nat.le_refl _) semicolon
    | cons t rest =>
      have hpos := List.length_pos_iff.mpr hne
      exact endsAlike_of_lt (Nat.sub_lt hpos (Nat.succ_pos _)) semicolon e
  | rejectedAtEnd e =>
    rw [parse_of_rejected hf hr, parse_of_rejected hf' hr']
    refine ⟨rfl, fun _ => ⟨_, _, _, Verdict.ofTokens_of_rejected hf hr, rfl, rfl, ?_⟩⟩
    refine endsAlike_of_length_le (known hr) ?_ semicolon
    rw [List.length_append]
    exact Nat.le_add_right ..

/-- A group that is open takes the semicolon, and what it lacks is missing behind it. -/
theorem parse_append_terminator_openGroup :
    tokenize "CREATE TABLE t (a INT CHECK (b".toList ≠ [] ∧
    (∀ t ∈ tokenize "CREATE TABLE t (a INT CHECK (b".toList, t.fault? = none) ∧
    (∀ t ∈ tokenize "CREATE TABLE t (a INT CHECK (b".toList, t.kind ≠ .punctuation .semicolon) ∧
    (parse (tokenize "CREATE TABLE t (a INT CHECK (b".toList)).isValid = false ∧
    ∃ position problem problem',
      Verdict.ofTokens (tokenize "CREATE TABLE t (a INT CHECK (b".toList) =
        .rejected position problem ∧
      (parse (tokenize "CREATE TABLE t (a INT CHECK (b".toList)).errors = [problem] ∧
      (parse (tokenize "CREATE TABLE t (a INT CHECK (b".toList ++
        [⟨.punctuation .semicolon, ";", 2, 1, ⟨31, 32⟩⟩])).errors = [problem'] ∧
      problem.EndsAlike (tokenize "CREATE TABLE t (a INT CHECK (b".toList)
        ⟨.punctuation .semicolon, ";", 2, 1, ⟨31, 32⟩⟩ position problem' := by
  have hne : tokenize "CREATE TABLE t (a INT CHECK (b".toList ≠ [] := by decide +kernel
  have hf : ∀ t ∈ tokenize "CREATE TABLE t (a INT CHECK (b".toList, t.fault? = none := by
    decide +kernel
  have hfirst : ∀ t ∈ tokenize "CREATE TABLE t (a INT CHECK (b".toList,
      t.kind ≠ .punctuation .semicolon := by
    decide +kernel
  have h : (parse (tokenize "CREATE TABLE t (a INT CHECK (b".toList)).isValid = false := by
    decide +kernel
  exact ⟨hne, hf, hfirst, h, (parse_append_terminator hne hf hfirst rfl).2 h⟩

end SqlChecker
