import Mathlib.Data.Prod.Lex
import Mathlib.Logic.Relation
import SqlChecker.Lexer
import SqlChecker.Proofs.Recognition.Query
import SqlChecker.Proofs.ViablePrefix

/-! # Progress

The checker step by step, as it stands in front of a token and has found problems before.  A step
skips the first goal, begins it and goes on, or gives it up with a problem.  No step goes back or
beyond the last token, none takes a problem away, and a problem is added just where all is given up
(`Checker.advances_of_steps`, `Checker.advances_of_reaches`).  Each step leaves less to be done
(`Checker.wellFounded_steps`), and so every rule comes to an end, which is that of `Goal.run`
(`Checker.ends`); the problems that a whole statement comes to are those that are reported
(`exists_reaches_parse`).
-/
namespace SqlChecker

/-- A step takes at least one terminal, and none that is not there. -/
theorem Goal.count_le_of_stepBefore {g : Goal} {ts : List Terminal} {count : Nat}
    {next : List Goal} (h : g.stepBefore ts = .take count next) :
    0 < count ∧ count ≤ ts.length := by
  have hmove : moveBefore [g] ts = .take count (next ++ []) := by rw [moveBefore_cons, h]
  obtain ⟨t, front, back, rfl, rfl⟩ := exists_append_of_moveBefore hmove
  simp

open Goal

/-- Where the checker stands. -/
structure Checker where
  /-- What is to be matched next, if it has not been given up. -/
  goals : Option (List Goal)
  /-- The index of the next token. -/
  position : Nat
  problems : List Diagnostic
  deriving DecidableEq

namespace Checker

/-- What one step leads to, if there is one. -/
def next? (tokens : List Token) (s : Checker) : Option Checker :=
  match s.goals with
  | none | some [] => none
  | some (g :: goals) => match g.stepBefore (terminalsFrom tokens s.position) with
    | .fail e => some ⟨none, s.position,
        s.problems ++ [Verdict.syntaxProblem tokens s.position e]⟩
    | .skip => some { s with goals := some goals }
    | .take count next => some
        { s with goals := some (next ++ goals), position := s.position + count }

def Steps (tokens : List Token) (s s' : Checker) : Prop := s.next? tokens = some s'

abbrev Reaches (tokens : List Token) : Checker → Checker → Prop :=
  Relation.ReflTransGen (Steps tokens)

variable {tokens : List Token} {s s' s'' : Checker} {g : Goal} {goals next : List Goal}
variable {count position : Nat}

/-! ### Steps -/

/-- What is taken goes no further than the last token. -/
theorem add_count_le (h : g.stepBefore (terminalsFrom tokens position) = .take count next) :
    0 < count ∧ position + count ≤ tokens.length := by
  obtain ⟨hpos, hcount⟩ := count_le_of_stepBefore h
  rw [length_terminalsFrom] at hcount
  exact ⟨hpos, by omega⟩

/-- **What a step can do.** -/
theorem steps_iff : Steps tokens s s' ↔ ∃ g goals, s.goals = some (g :: goals) ∧
    ((∃ e, g.stepBefore (terminalsFrom tokens s.position) = .fail e ∧
        s' = ⟨none, s.position, s.problems ++ [Verdict.syntaxProblem tokens s.position e]⟩) ∨
      (g.stepBefore (terminalsFrom tokens s.position) = .skip ∧
        s' = ⟨some goals, s.position, s.problems⟩) ∨
      ∃ count next, g.stepBefore (terminalsFrom tokens s.position) = .take count next ∧
        s' = ⟨some (next ++ goals), s.position + count, s.problems⟩) := by
  obtain ⟨_ | _ | ⟨g, goals⟩, position, problems⟩ := s
  · simp [Steps, next?]
  · simp [Steps, next?]
  · cases hstep : g.stepBefore (terminalsFrom tokens position) <;>
      simp [Steps, next?, hstep, eq_comm]

/-- **The state is kept in order.**  The checker does not go back, nor beyond the last token, and it
has the same problems as before unless it gives up, with one more. -/
structure Advances (tokens : List Token) (s s' : Checker) : Prop where
  le_position : s.position ≤ s'.position
  position_le : s.position ≤ tokens.length → s'.position ≤ tokens.length
  problems_eq : s'.goals.isSome = s.goals.isSome ∧ s'.problems = s.problems ∨
    s.goals.isSome = true ∧ s'.goals.isSome = false ∧ ∃ d, s'.problems = s.problems ++ [d]

theorem Advances.refl (tokens : List Token) (s : Checker) : Advances tokens s s :=
  ⟨Nat.le_refl _, id, .inl ⟨rfl, rfl⟩⟩

theorem Advances.trans (h : Advances tokens s s') (h' : Advances tokens s' s'') :
    Advances tokens s s'' where
  le_position := h.le_position.trans h'.le_position
  position_le hs := h'.position_le (h.position_le hs)
  problems_eq := by
    rcases h.problems_eq with ⟨hgoals, hproblems⟩ | ⟨hgoals, hnone, d, hproblems⟩
    · rw [← hgoals, ← hproblems]
      exact h'.problems_eq
    -- Once all is given up there is nothing that could be given up again.
    · rcases h'.problems_eq with ⟨hgoals', hproblems'⟩ | ⟨hgoals', -, -⟩
      · exact .inr ⟨hgoals, hgoals'.trans hnone, d, hproblems'.trans hproblems⟩
      · rw [hnone] at hgoals'
        cases hgoals'

theorem advances_of_steps (h : Steps tokens s s') : Advances tokens s s' := by
  obtain ⟨g, goals, hgoals, ⟨e, -, rfl⟩ | ⟨-, rfl⟩ | ⟨count, next, hstep, rfl⟩⟩ := steps_iff.mp h
  · exact ⟨Nat.le_refl _, id, .inr ⟨by rw [hgoals]; rfl, rfl, _, rfl⟩⟩
  · exact ⟨Nat.le_refl _, id, .inl ⟨by rw [hgoals]; rfl, rfl⟩⟩
  · exact ⟨Nat.le_add_right .., fun _ => (add_count_le hstep).2, .inl ⟨by rw [hgoals]; rfl, rfl⟩⟩

theorem advances_of_reaches (h : Reaches tokens s s') : Advances tokens s s' := by
  induction h with
  | refl => exact .refl tokens s
  | tail _ hstep ih => exact ih.trans (advances_of_steps hstep)

/-! ### The end -/

/-- What is left to be done: first the tokens that are left, then the goals. -/
def rank (tokens : List Token) (s : Checker) : ℕ ×ₗ ℕ :=
  toLex (tokens.length - s.position, s.goals.elim 0 fun goals => goals.length + 1)

/-- **Each step leaves less to be done.**  A goal that is begun takes a token, and one that is
skipped or given up is gone. -/
theorem rank_lt_of_steps (h : Steps tokens s s') : s'.rank tokens < s.rank tokens := by
  obtain ⟨g, goals, hgoals, ⟨e, -, rfl⟩ | ⟨-, rfl⟩ | ⟨count, next, hstep, rfl⟩⟩ := steps_iff.mp h
  · refine Prod.Lex.toLex_lt_toLex.mpr (.inr ⟨rfl, ?_⟩)
    simp [hgoals]
  · refine Prod.Lex.toLex_lt_toLex.mpr (.inr ⟨rfl, ?_⟩)
    simp [hgoals]
  · obtain ⟨hpos, hcount⟩ := add_count_le hstep
    refine Prod.Lex.toLex_lt_toLex.mpr (.inl ?_)
    show tokens.length - (s.position + count) < tokens.length - s.position
    omega

/-- **The checker comes to an end.** -/
theorem wellFounded_steps (tokens : List Token) :
    WellFounded fun s' s => Steps tokens s s' :=
  Subrelation.wf (fun h => rank_lt_of_steps h) (InvImage.wf (rank tokens) wellFounded_lt)

/-! ### Rules -/

/-- A rule is matched from one place to another, whatever goals are behind it. -/
def Passes (tokens : List Token) (rule : List Goal) (position position' : Nat) : Prop :=
  ∀ goals problems, Reaches tokens ⟨some (rule ++ goals), position, problems⟩
    ⟨some goals, position', problems⟩

/-- A rule is given up at a place, with one more problem. -/
def GivesUp (tokens : List Token) (rule : List Goal) (position position' : Nat)
    (e : SyntaxError) : Prop :=
  ∀ goals problems, Reaches tokens ⟨some (rule ++ goals), position, problems⟩
    ⟨none, position', problems ++ [Verdict.syntaxProblem tokens position' e]⟩

/-- A rule comes to an end, which is that of matching it against the tokens from its place on. -/
def Ends (tokens : List Token) (rule : List Goal) (position : Nat) : Prop :=
  (∃ position', run rule (terminalsFrom tokens position) =
      .accepted (terminalsFrom tokens position') ∧ Passes tokens rule position position') ∨
    ∃ position' e, run rule (terminalsFrom tokens position) =
      .rejected e (terminalsFrom tokens position') ∧ GivesUp tokens rule position position' e

variable {rule rule' : List Goal} {position' : Nat}

theorem Ends.of_steps
    (hrun : run rule (terminalsFrom tokens position) = run rule' (terminalsFrom tokens position'))
    (hsteps : ∀ goals problems, Steps tokens ⟨some (rule ++ goals), position, problems⟩
      ⟨some (rule' ++ goals), position', problems⟩)
    (h : Ends tokens rule' position') : Ends tokens rule position := by
  rw [Ends, hrun]
  refine h.imp ?_ ?_
  · rintro ⟨last, haccepted, hpasses⟩
    exact ⟨last, haccepted, fun goals problems =>
      .head (hsteps goals problems) (hpasses goals problems)⟩
  · rintro ⟨last, e, hrejected, hgivesUp⟩
    exact ⟨last, e, hrejected, fun goals problems =>
      .head (hsteps goals problems) (hgivesUp goals problems)⟩

/-- **Every rule comes to an end.**  The recursion is that of the checker: what is left of the first
goal is matched with the others behind it, and each step leaves less to be done. -/
theorem ends (tokens : List Token) (rule : List Goal) (position : Nat) :
    Ends tokens rule position := by
  cases rule with
  | nil => exact .inl ⟨position, congrFun run_nil _, fun goals problems => .refl⟩
  | cons g rule =>
    cases hstep : g.stepBefore (terminalsFrom tokens position) with
    | fail e =>
      refine .inr ⟨position, e, by rw [run_cons, hstep], fun goals problems => .single ?_⟩
      exact steps_iff.mpr ⟨g, rule ++ goals, rfl, .inl ⟨e, hstep, rfl⟩⟩
    | skip =>
      refine .of_steps (by rw [run_cons, hstep]) (fun goals problems => ?_)
        (ends tokens rule position)
      exact steps_iff.mpr ⟨g, rule ++ goals, rfl, .inr (.inl ⟨hstep, rfl⟩)⟩
    | take count next =>
      have hless : tokens.length - (position + count) < tokens.length - position := by
        obtain ⟨hpos, hcount⟩ := add_count_le hstep
        omega
      refine .of_steps (by rw [run_cons, hstep, ← drop_terminalsFrom])
        (fun goals problems => ?_) (ends tokens (next ++ rule) (position + count))
      refine steps_iff.mpr ⟨g, rule ++ goals, rfl, .inr (.inr ⟨count, next, hstep, ?_⟩)⟩
      rw [List.append_assoc]
termination_by (tokens.length - position, rule.length)

end Checker

/-! ### Rules that must match something -/

namespace Goal

variable {g : Goal} {goals : List Goal} {ts rest : List Terminal}

/-- A goal that is never skipped. -/
def IsNeeded (g : Goal) : Prop := ∀ ts, g.stepBefore ts ≠ .skip

/-- The rules that are matched by one terminal at least.  One constraint is among them where there
is a terminal, whichever it is. -/
inductive MustMatch (ts : List Terminal) : List Goal → Prop where
  | name (missing : SyntaxError) : MustMatch ts [name missing]
  | expression (missing : SyntaxError) : MustMatch ts [expression missing]
  | condition (missing : SyntaxError) : MustMatch ts (logical missing)
  | value (missing : SyntaxError) : MustMatch ts [value missing]
  | row : MustMatch ts row
  | columns : MustMatch ts [columns]
  | tables (missing : SyntaxError) : MustMatch ts [.name missing, otherName, joins]
  | order (missing : SyntaxError) : MustMatch ts (orderColumn missing ++ [moreOrderColumns])
  | assignments (missing : SyntaxError) : MustMatch ts (assignment missing ++ [moreAssignments])
  | column : MustMatch ts columnDefinition
  | constraint (h : ts ≠ []) : MustMatch ts [constraint]
  | body {t : Terminal} {goals : List Goal} (h : body? t = some goals) : MustMatch ts goals

theorem begin?_ne_skip (missing : SyntaxError) (next? : Option (List Goal)) :
    Step.begin? missing next? ≠ .skip := by
  cases next? <;> simp [Step.begin?]

theorem isNeeded_name (missing : SyntaxError) : IsNeeded (name missing) :=
  fun _ => begin?_ne_skip _ _

theorem isNeeded_expression (missing : SyntaxError) : IsNeeded (expression missing) :=
  fun _ => begin?_ne_skip _ _

theorem isNeeded_value (missing : SyntaxError) : IsNeeded (value missing) :=
  fun _ => begin?_ne_skip _ _

theorem isNeeded_expect (wanted : List Terminal) (missing : SyntaxError) :
    IsNeeded (expect wanted missing) := by
  intro ts
  rw [stepBefore, step]
  split_ifs <;> simp

theorem isNeeded_columns : IsNeeded columns := by
  intro ts
  rw [stepBefore, step]
  split_ifs
  · simp
  · exact begin?_ne_skip _ _

/-- One constraint takes the next terminal, also one that ends a definition. -/
theorem stepBefore_constraint (t : Terminal) (ts : List Terminal) :
    constraint.stepBefore (t :: ts) = .take 1 (constraintAfter t) := rfl

/-- A rule that must match something has a goal that is not skipped in front. -/
theorem MustMatch.exists_ne_skip (h : MustMatch ts goals) :
    ∃ g rest, goals = g :: rest ∧ g.stepBefore ts ≠ .skip := by
  cases h with
  | name missing => exact ⟨_, _, rfl, isNeeded_name missing ts⟩
  | expression missing => exact ⟨_, _, rfl, isNeeded_expression missing ts⟩
  | condition missing => exact ⟨_, _, rfl, isNeeded_expression missing ts⟩
  | value missing => exact ⟨_, _, rfl, isNeeded_value missing ts⟩
  | row => exact ⟨_, _, rfl, isNeeded_expect _ _ ts⟩
  | columns => exact ⟨_, _, rfl, isNeeded_columns ts⟩
  | tables missing => exact ⟨_, _, rfl, isNeeded_name missing ts⟩
  | order missing => exact ⟨_, _, rfl, isNeeded_name missing ts⟩
  | assignments missing => exact ⟨_, _, rfl, isNeeded_name missing ts⟩
  | column => exact ⟨_, _, rfl, isNeeded_name _ ts⟩
  | constraint hts =>
    obtain ⟨t, ts, rfl⟩ := List.exists_cons_of_ne_nil hts
    exact ⟨_, _, rfl, by rw [stepBefore_constraint]; simp⟩
  | body hb =>
    unfold body? at hb
    split at hb <;> cases hb
    · exact ⟨_, _, rfl, isNeeded_columns ts⟩
    · exact ⟨_, _, rfl, isNeeded_expect _ _ ts⟩
    · exact ⟨_, _, rfl, isNeeded_name _ ts⟩
    all_goals exact ⟨_, _, rfl, isNeeded_expect _ _ ts⟩

/-- **What must match something leaves less over.** -/
theorem MustMatch.length_lt (h : MustMatch ts goals) (hr : run goals ts = .accepted rest) :
    rest.length < ts.length := by
  obtain ⟨g, goals, rfl, hne⟩ := h.exists_ne_skip
  rw [run_cons] at hr
  cases hstep : g.stepBefore ts with
  | fail e =>
    rw [hstep] at hr
    cases hr
  | skip => exact absurd hstep hne
  | take count next =>
    rw [hstep] at hr
    have hle := length_le_of_run hr
    have hcount := count_le_of_stepBefore hstep
    rw [List.length_drop] at hle
    omega

/-! ### Joins and constraints -/

theorem stepBefore_joins_of_mem {w : List Terminal} (hw : w ∈ Grammar.join) (rest : List Terminal) :
    joins.stepBefore (w ++ rest) = .take w.length joined := by
  rcases mem_join_iff.mp hw with rfl | rfl | ⟨side, rfl | rfl, rfl | rfl⟩ <;> rfl

theorem stepBefore_joins_of_not (h : ¬ ∃ w ∈ Grammar.join, w <+: ts) :
    joins.stepBefore ts = .skip := by
  refine (stepJoins_eq ts[0]? ts[1]? ts[2]?).resolve_right ?_
  rintro ⟨count, hstep⟩
  obtain ⟨w, hw, hts⟩ := stepJoins_eq_take hstep
  exact h ⟨w, hw, _, hts.symm⟩

/-- Up to the end of a definition, constraints go on as one constraint with others behind it. -/
theorem stepBefore_constraints {t : Terminal} (h : endsDefinition (some t) = false)
    (ts : List Terminal) :
    constraints.stepBefore (t :: ts) = .take 1 (constraintAfter t ++ [constraints]) := by
  rw [stepBefore_cons, step, h]
  rfl

end Goal

/-! ### The whole checker -/

open Checker

variable {tokens : List Token}

/-- **The steps of the checker come to what it reports** of tokens of which none is a fault. -/
theorem exists_reaches_parse (hf : ∀ t ∈ tokens, t.fault? = none) :
    ∃ s, Reaches tokens ⟨some [statement], 0, []⟩ s ∧ s.next? tokens = none ∧
      parse tokens = ⟨s.problems⟩ := by
  rcases ends tokens [statement] 0 with ⟨position, hr, hpasses⟩ | ⟨position, e, hr, hgivesUp⟩
  · exact ⟨_, hpasses [] [], rfl, parse_of_accepted hf hr⟩
  · have hle : position ≤ tokens.length :=
      (advances_of_reaches (hgivesUp [] [])).position_le (Nat.zero_le _)
    refine ⟨_, hgivesUp [] [], rfl, (parse_of_rejected hf hr).trans ?_⟩
    rw [length_terminalsFrom, Nat.sub_sub_self hle]
    rfl

/-- **Every rule ends in order.**  It is passed, further on if it must match something, or given up,
and it neither goes back nor beyond the last token. -/
theorem ends_within {position : Nat} (hposition : position ≤ tokens.length) (rule : List Goal) :
    (∃ position', position ≤ position' ∧ position' ≤ tokens.length ∧
      (MustMatch (terminalsFrom tokens position) rule → position < position') ∧
      run rule (terminalsFrom tokens position) = .accepted (terminalsFrom tokens position') ∧
      Passes tokens rule position position') ∨
    ∃ position' e, position ≤ position' ∧ position' ≤ tokens.length ∧
      run rule (terminalsFrom tokens position) = .rejected e (terminalsFrom tokens position') ∧
      GivesUp tokens rule position position' e := by
  refine (ends tokens rule position).imp ?_ ?_
  · rintro ⟨position', hr, hpasses⟩
    have hadvances := advances_of_reaches (hpasses [] [])
    refine ⟨position', hadvances.le_position, hadvances.position_le hposition, fun hmust => ?_,
      hr, hpasses⟩
    have hlt := hmust.length_lt hr
    rw [length_terminalsFrom, length_terminalsFrom] at hlt
    omega
  · rintro ⟨position', e, hr, hgivesUp⟩
    have hadvances := advances_of_reaches (hgivesUp [] [])
    exact ⟨position', e, hadvances.le_position, hadvances.position_le hposition, hr, hgivesUp⟩

/-- In the loop of constraints each round is one constraint. -/
theorem steps_constraints_iff {s : Checker} {position : Nat} (goals : List Goal)
    (problems : List Diagnostic)
    (h : endsDefinition (terminalsFrom tokens position)[0]? = false) :
    Steps tokens ⟨some (constraints :: goals), position, problems⟩ s ↔
      Steps tokens ⟨some (constraint :: constraints :: goals), position, problems⟩ s := by
  cases hts : terminalsFrom tokens position with
  | nil =>
    rw [hts] at h
    cases h
  | cons t ts =>
    rw [hts, List.getElem?_cons_zero] at h
    simp only [Steps, next?, hts, stepBefore_constraints h, stepBefore_constraint,
      List.append_assoc, List.singleton_append]

/-- **The checker always makes progress and keeps its state in order.**  It takes no infinitely many
steps, and none of them goes back, beyond the last token, or drops a problem; of tokens without
faults, the problems it comes to are those that are reported.  Every rule is passed with the
problems of before, further on if it must match something, or is given up with one more.  A join
that is not complete takes nothing, and up to the end of a definition the loop of constraints goes
on with one constraint. -/
theorem checker_makes_progress (tokens : List Token) :
    (WellFounded fun s' s => Steps tokens s s') ∧
    (∀ s s', Reaches tokens s s' → Advances tokens s s') ∧
    ((∀ t ∈ tokens, t.fault? = none) → ∃ s, Reaches tokens ⟨some [statement], 0, []⟩ s ∧
      s.next? tokens = none ∧ parse tokens = ⟨s.problems⟩) ∧
    ∀ position ≤ tokens.length,
      (∀ rule,
        (∃ position', position ≤ position' ∧ position' ≤ tokens.length ∧
          (MustMatch (terminalsFrom tokens position) rule → position < position') ∧
          run rule (terminalsFrom tokens position) = .accepted (terminalsFrom tokens position') ∧
          Passes tokens rule position position') ∨
        ∃ position' e, position ≤ position' ∧ position' ≤ tokens.length ∧
          run rule (terminalsFrom tokens position) = .rejected e (terminalsFrom tokens position') ∧
          GivesUp tokens rule position position' e) ∧
      ∀ goals problems,
        ((¬ ∃ w ∈ Grammar.join, w <+: terminalsFrom tokens position) →
          Steps tokens ⟨some (joins :: goals), position, problems⟩
            ⟨some goals, position, problems⟩) ∧
        (∀ w ∈ Grammar.join, w <+: terminalsFrom tokens position →
          Steps tokens ⟨some (joins :: goals), position, problems⟩
            ⟨some (joined ++ goals), position + w.length, problems⟩) ∧
        (endsDefinition (terminalsFrom tokens position)[0]? = false → ∀ s,
          Steps tokens ⟨some (constraints :: goals), position, problems⟩ s ↔
            Steps tokens ⟨some (constraint :: constraints :: goals), position, problems⟩ s) := by
  refine ⟨wellFounded_steps tokens, fun s s' => advances_of_reaches, exists_reaches_parse,
    fun position hposition => ⟨ends_within hposition, fun goals problems => ⟨?_, ?_, ?_⟩⟩⟩
  · intro hnone
    exact steps_iff.mpr ⟨joins, goals, rfl, .inr (.inl ⟨stepBefore_joins_of_not hnone, rfl⟩)⟩
  · rintro w hw ⟨rest, hts⟩
    refine steps_iff.mpr ⟨joins, goals, rfl, .inr (.inr ⟨w.length, joined, ?_, rfl⟩)⟩
    show joins.stepBefore (terminalsFrom tokens position) = _
    rw [← hts]
    exact stepBefore_joins_of_mem hw rest
  · exact fun hends s => steps_constraints_iff goals problems hends

/-- A condition, a join behind it, one that is not complete, and a comma, which is one constraint
but ends a loop of them. -/
theorem checker_makes_progress_joins :
    let tokens := tokenize "a JOIN b LEFT,".toList
    (∀ t ∈ tokens, t.fault? = none) ∧
    (∃ s, Reaches tokens ⟨some [statement], 0, []⟩ s ∧ s.next? tokens = none ∧
      parse tokens = ⟨s.problems⟩) ∧
    0 ≤ tokens.length ∧ MustMatch (terminalsFrom tokens 0) condition ∧
    (∃ position, 0 < position ∧ position ≤ tokens.length ∧ Passes tokens condition 0 position) ∧
    1 ≤ tokens.length ∧ Steps tokens ⟨some [joins], 1, []⟩ ⟨some joined, 2, []⟩ ∧
    Advances tokens ⟨some [joins], 1, []⟩ ⟨some joined, 2, []⟩ ∧
    3 ≤ tokens.length ∧ Steps tokens ⟨some [joins], 3, []⟩ ⟨some [], 3, []⟩ ∧
    Steps tokens ⟨some [constraints], 3, []⟩ ⟨some [constraints], 4, []⟩ ∧
    4 ≤ tokens.length ∧ MustMatch (terminalsFrom tokens 4) [constraint] ∧
    ∃ position, 4 < position ∧ position ≤ tokens.length ∧
      Passes tokens [constraint] 4 position := by
  intro tokens
  have hlength : tokens.length = 5 := by decide +kernel
  have hfaultless : ∀ t ∈ tokens, t.fault? = none := by decide +kernel
  have hjoin : [.keyword .JOIN] <+: terminalsFrom tokens 1 := by decide +kernel
  have hleft : terminalsFrom tokens 3 = [.keyword .LEFT, .punctuation .comma] := by decide +kernel
  have hcomma : terminalsFrom tokens 4 = [.punctuation .comma] := by decide +kernel
  have hnone : ¬ ∃ w ∈ Grammar.join, w <+: terminalsFrom tokens 3 := by
    rw [hleft]
    rintro ⟨w, hw, hprefix⟩
    rcases mem_join_iff.mp hw with rfl | rfl | ⟨side, rfl | rfl, rfl | rfl⟩ <;> revert hprefix <;>
      decide
  have hends : endsDefinition (terminalsFrom tokens 3)[0]? = false := by
    rw [hleft]
    rfl
  have hround :
      Steps tokens ⟨some [constraint, constraints], 3, []⟩ ⟨some [constraints], 4, []⟩ := by
    refine steps_iff.mpr ⟨constraint, [constraints], rfl, .inr (.inr ⟨1, [], ?_, rfl⟩)⟩
    show constraint.stepBefore (terminalsFrom tokens 3) = _
    rw [hleft]
    rfl
  have hcondition : MustMatch (terminalsFrom tokens 0) condition := .condition .condition
  have hconstraint : MustMatch (terminalsFrom tokens 4) [constraint] :=
    .constraint (by simp [hcomma])
  obtain ⟨-, hadvances, hparse, hplaces⟩ := checker_makes_progress tokens
  obtain ⟨hrules0, -⟩ := hplaces 0 (by omega)
  obtain ⟨-, hjoins1⟩ := hplaces 1 (by omega)
  obtain ⟨-, hloops3⟩ := hplaces 3 (by omega)
  obtain ⟨hrules4, -⟩ := hplaces 4 (by omega)
  have joined := (hjoins1 [] []).2.1 [.keyword .JOIN] (mem_join_iff.mpr (.inl rfl)) hjoin
  refine ⟨hfaultless, hparse hfaultless, by omega, hcondition, ?_, by omega, joined,
    hadvances _ _ (.single joined), by omega, (hloops3 [] []).1 hnone,
    ((hloops3 [] []).2.2 hends _).mpr hround, by omega, hconstraint, ?_⟩
  · obtain ⟨position, -, hle, hlt, -, hpasses⟩ | ⟨position, e, -, -, hr, -⟩ := hrules0 condition
    · exact ⟨position, hlt hcondition, hle, hpasses⟩
    · have haccepted : run condition (terminalsFrom tokens 0) =
          .accepted [.keyword .JOIN, .identifier .other, .keyword .LEFT, .punctuation .comma] := by
        decide +kernel
      rw [haccepted] at hr
      cases hr
  · obtain ⟨position, -, hle, hlt, -, hpasses⟩ | ⟨position, e, -, -, hr, -⟩ := hrules4 [constraint]
    · exact ⟨position, hlt hconstraint, hle, hpasses⟩
    · have haccepted : run [constraint] (terminalsFrom tokens 4) = .accepted [] := by
        decide +kernel
      rw [haccepted] at hr
      cases hr

end SqlChecker
