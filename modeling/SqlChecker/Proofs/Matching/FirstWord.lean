import Mathlib.Tactic.SplitIfs
import SqlChecker.Proofs.Matching.Sequence

/-! # The word that a statement begins with

Of all syntax errors only that of an unknown statement quotes what was found.  It is the first word
of the statement that is quoted, and no other: the goals within a statement ask for other things
(`isInner`), and so do those that a step leaves of them.
-/
namespace SqlChecker.Goal
open Step

/-- A goal within a statement: it does not ask for the word that a statement begins with. -/
def isInner : Goal → Bool
  | statement => false
  | expect _ missing | name missing | expression missing | primary missing | value missing =>
    missing ≠ .unknownStatement
  | _ => true

/-- Only inner goals are left after a terminal. -/
def LeavesInner (after? : Terminal → Option (List Goal)) : Prop :=
  ∀ t, ∀ next ∈ after? t, next.all isInner = true

variable {g : Goal} {goals next : List Goal} {first second third : Option Terminal}
variable {count : Nat} {e missing : SyntaxError} {t : Terminal} {ts rest : List Terminal}

/-! ### What is left of a goal -/

theorem LeavesInner.map {after? : Terminal → Option (List Goal)} (h : LeavesInner after?)
    (hg : goals.all isInner = true) : LeavesInner fun t => (after? t).map (· ++ goals) := by
  intro t next hnext
  obtain ⟨next, hn, rfl⟩ := Option.map_eq_some_iff.mp hnext
  rw [List.all_append, h t next hn, hg]
  rfl

theorem leavesInner_nameAfter? : LeavesInner nameAfter? := by
  intro t next h
  unfold nameAfter? at h
  split at h <;> cases h
  rfl

theorem leavesInner_primaryAfter? : LeavesInner primaryAfter? := by
  intro t next h
  unfold primaryAfter? at h
  split at h <;> cases h <;> rfl

theorem leavesInner_expressionAfter? (h : missing ≠ .unknownStatement) :
    LeavesInner (expressionAfter? missing) := by
  intro t next hn
  unfold expressionAfter? at hn
  split at hn
  · cases hn
    simp [isInner, h]
  · cases hn
    simp [isInner, h]
  · exact leavesInner_primaryAfter?.map rfl _ _ hn

theorem leavesInner_valueAfter? (h : missing ≠ .unknownStatement) :
    LeavesInner (valueAfter? missing) := by
  intro t next hn
  unfold valueAfter? at hn
  split at hn <;> cases hn <;> simp [isInner, number, h]

theorem leavesInner_predicateAfter? : LeavesInner predicateAfter? := by
  intro t next h
  unfold predicateAfter? at h
  split at h <;> cases h <;> rfl

theorem leavesInner_referenceActionAfter? : LeavesInner referenceActionAfter? := by
  intro t next h
  unfold referenceActionAfter? at h
  split at h <;> cases h <;> rfl

theorem leavesInner_body? : LeavesInner body? := by
  intro t next h
  unfold body? at h
  split at h <;> cases h <;> rfl

theorem all_isInner_constraintAfter (t : Terminal) : (constraintAfter t).all isInner = true := by
  unfold constraintAfter
  split <;> rfl

/-! ### Steps -/

theorem all_isInner_of_take {count' : Nat} {next' : List Goal}
    (h : take count' next' = .take count next) (hn : next'.all isInner = true) :
    next.all isInner = true := by
  obtain ⟨-, rfl⟩ := Step.take.inj h
  exact hn

theorem all_isInner_of_begin? {after? : Terminal → Option (List Goal)}
    (h : begin? missing (first.bind after?) = .take count next) (ha : LeavesInner after?) :
    next.all isInner = true := by
  obtain ⟨t, -, ht⟩ := Option.bind_eq_some_iff.mp (begin?_eq_take h).2
  exact ha t next ht

theorem all_isInner_of_begin?_map {after? : Terminal → Option (List Goal)}
    (h : begin? missing ((first.bind after?).map (· ++ goals)) = .take count next)
    (ha : LeavesInner after?) (hg : goals.all isInner = true) : next.all isInner = true := by
  rw [Option.map_bind] at h
  exact all_isInner_of_begin? h (ha.map hg)

theorem all_isInner_of_stepSuffix (h : stepSuffix first second = .take count next) :
    next.all isInner = true := by
  have predicate {t : Option Terminal} {goals : List Goal}
      (hp : t.bind predicateAfter? = some goals) : goals.all isInner = true := by
    obtain ⟨u, -, hu⟩ := Option.bind_eq_some_iff.mp hp
    exact leavesInner_predicateAfter? u goals hu
  unfold stepSuffix at h
  split_ifs at h
  · split at h
    · next hp =>
      exact all_isInner_of_take h (predicate hp)
    · cases h
  · exact all_isInner_of_take h rfl
  · exact all_isInner_of_take h rfl
  · split at h
    · next hp =>
      exact all_isInner_of_take h (predicate hp)
    · cases h

/-- **An inner goal leaves inner goals.** -/
theorem all_isInner_of_step (hg : g.isInner = true)
    (h : g.step first second third = .take count next) : next.all isInner = true := by
  cases g
  case statement => cases hg
  case name => exact all_isInner_of_begin? h leavesInner_nameAfter?
  case primary => exact all_isInner_of_begin? h leavesInner_primaryAfter?
  case expression =>
    exact all_isInner_of_begin? h (leavesInner_expressionAfter? (of_decide_eq_true hg))
  case value => exact all_isInner_of_begin? h (leavesInner_valueAfter? (of_decide_eq_true hg))
  case referenceAction => exact all_isInner_of_begin? h leavesInner_referenceActionAfter?
  case suffix => exact all_isInner_of_stepSuffix h
  case group outer =>
    simp only [step, stepGroup] at h
    split at h
    · cases h
    · exact all_isInner_of_take h rfl
    · split at h <;> exact all_isInner_of_take h rfl
    · exact all_isInner_of_take h rfl
  case constraint =>
    obtain ⟨t, -, -, rfl⟩ := stepConstraint_eq_take h
    exact all_isInner_constraintAfter t
  case constraints =>
    obtain ⟨t, -, -, -, rfl⟩ := step_constraints_eq_take h
    rw [List.all_append, all_isInner_constraintAfter]
    rfl
  case arguments | columns =>
    simp only [step] at h
    split_ifs at h
    · exact all_isInner_of_take h rfl
    all_goals first
      | exact all_isInner_of_take h rfl
      | exact all_isInner_of_begin?_map h (leavesInner_expressionAfter? (by decide)) rfl
  case definition | addition =>
    simp only [step] at h
    split_ifs at h
    all_goals first
      | exact all_isInner_of_take h rfl
      | exact all_isInner_of_begin?_map h leavesInner_nameAfter? rfl
  case removal =>
    simp only [step] at h
    split_ifs at h
    · exact all_isInner_of_take h rfl
    · exact all_isInner_of_take h rfl
    · exact all_isInner_of_begin? h leavesInner_nameAfter?
  -- The other goals leave the same goals before every terminal that begins them.
  all_goals
    simp only [step, stepJoins] at h
    split_ifs at h <;> exact all_isInner_of_take h rfl

/-- An inner goal is not given up for the first word of a statement. -/
theorem ne_unknownStatement_of_step (hg : g.isInner = true)
    (h : g.step first second third = .fail e) : e ≠ .unknownStatement := by
  cases g
  case constraint => exact absurd h (stepConstraint_ne_fail _ _)
  case constraints => exact absurd h (step_constraints_ne_fail _ _ _ _)
  all_goals
    simp only [step, stepSuffix, stepJoins, stepGroup, begin?] at h
    grind [isInner]

/-! ### Runs -/

theorem all_isInner_of_moveBefore (hg : goals.all isInner = true)
    (h : moveBefore goals ts = .take count next) : next.all isInner = true := by
  induction goals with
  | nil => cases h
  | cons g goals ih =>
    obtain ⟨hinner, hgoals⟩ := Bool.and_eq_true_iff.mp hg
    rw [moveBefore_cons] at h
    split at h
    · cases h
    · exact ih hgoals h
    · next hs =>
      obtain ⟨-, rfl⟩ := Move.take.inj h
      rw [List.all_append, all_isInner_of_step hinner hs, hgoals]
      rfl

theorem ne_unknownStatement_of_moveBefore (hg : goals.all isInner = true)
    (h : moveBefore goals ts = .fail e) : e ≠ .unknownStatement := by
  induction goals with
  | nil => cases h
  | cons g goals ih =>
    obtain ⟨hinner, hgoals⟩ := Bool.and_eq_true_iff.mp hg
    rw [moveBefore_cons] at h
    split at h
    · next hs =>
      obtain rfl := Move.fail.inj h
      exact ne_unknownStatement_of_step hinner hs
    · exact ih hgoals h
    · cases h

/-- **Within a statement** no word is unknown. -/
theorem ne_unknownStatement_of_run (hg : goals.all isInner = true)
    (h : run goals ts = .rejected e rest) : e ≠ .unknownStatement := by
  fun_induction run goals ts with
  | case1 goals ts hm => cases h
  | case2 goals ts e' hm =>
    obtain ⟨rfl, -⟩ := Outcome.rejected.inj h
    exact ne_unknownStatement_of_moveBefore hg hm
  | case3 goals ts count next hm ih => exact ih (all_isInner_of_moveBefore hg hm) h

/-- **An unknown statement is one whose first word is unknown.** -/
theorem eq_of_run_unknownStatement
    (h : run [statement] ts = .rejected .unknownStatement rest) : rest = ts := by
  rw [run_cons] at h
  cases ts with
  | nil => cases h
  | cons t ts =>
    cases hb : body? t with
    | none =>
      simp only [stepBefore_cons, step, begin?, hb, Option.map_none] at h
      exact (Outcome.rejected.inj h).2.symm
    | some body =>
      simp only [stepBefore_cons, step, begin?, hb, Option.map_some] at h
      refine absurd rfl (ne_unknownStatement_of_run ?_ h)
      rw [List.append_nil, List.all_append, leavesInner_body? t body hb]
      rfl

end SqlChecker.Goal
