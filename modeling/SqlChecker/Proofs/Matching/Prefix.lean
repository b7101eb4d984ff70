import SqlChecker.Proofs.Matching.Lookahead
import SqlChecker.Proofs.Matching.Sequence

/-! # Matching up to the end of a statement

What is done about the terminals of a statement does not depend on what comes after it.  So matching
can be cut where the statement ends: `left?` says which goals are left there, and matching goes on
with them (`run_append_of_left?`), or has broken off before (`run_append_of_left?_eq_none`).
-/
namespace SqlChecker.Goal
open Step

/-- What may come after the terminals of a statement: nothing, or a semicolon first. -/
def Follows (rest : List Terminal) : Prop := endsStatement rest.head? = true

theorem follows_nil : Follows [] := rfl

theorem follows_semicolon (rest : List Terminal) :
    Follows (.punctuation .semicolon :: rest) := rfl

/-- The goals that are left when all terminals are taken, if matching does not end before. -/
def left? (goals : List Goal) (ts : List Terminal) : Option (List Goal) :=
  if ts = [] then some goals
  else match _h : moveBefore goals ts with
    | .take count next => left? next (ts.drop count)
    | _ => none
termination_by ts.length
decreasing_by exact length_drop_of_moveBefore _h

variable {goals next : List Goal} {count : Nat} {t : Terminal} {ts rest rest' : List Terminal}

theorem left?_nil (goals : List Goal) : left? goals [] = some goals := by
  rw [left?, if_pos rfl]

theorem left?_of_take (h : moveBefore goals (t :: ts) = .take count next) :
    left? goals (t :: ts) = left? next ((t :: ts).drop count) := by
  rw [left?, if_neg (List.cons_ne_nil t ts)]
  split <;> simp_all

/-! ### Moves -/

/-- A step before terminals of the statement does not depend on what follows the statement. -/
theorem stepBefore_append (g : Goal) (hr : Follows rest) (hr' : Follows rest') :
    g.stepBefore (t :: ts ++ rest) = g.stepBefore (t :: ts ++ rest') := by
  rw [List.cons_append, List.cons_append, stepBefore_cons, stepBefore_cons]
  refine step_congr g ?_ fun hs => ?_
  · cases ts with
    | nil => exact .inr (by simpa [Follows, List.head?_eq_getElem?] using And.intro hr hr')
    | cons u ts => exact .inl rfl
  · rcases ts with - | ⟨u, - | ⟨v, ts⟩⟩
    · rw [List.nil_append, ← List.head?_eq_getElem?] at hs
      rw [Follows, hs] at hr
      cases hr
    · exact .inr (by simpa [Follows, List.head?_eq_getElem?] using And.intro hr hr')
    · exact .inl rfl

theorem moveBefore_append_rest (goals : List Goal) (hr : Follows rest) :
    moveBefore goals (t :: ts ++ rest) = moveBefore goals (t :: ts) := by
  induction goals with
  | nil => rfl
  | cons g goals ih =>
    have same : g.stepBefore (t :: ts ++ rest) = g.stepBefore (t :: ts ++ []) :=
      stepBefore_append g hr follows_nil
    rw [List.append_nil] at same
    rw [moveBefore_cons, moveBefore_cons, same, ih]

/-- A move takes terminals of the statement only. -/
theorem le_length_of_moveBefore (hr : Follows rest)
    (h : moveBefore goals (t :: ts ++ rest) = .take count next) : count ≤ (t :: ts).length := by
  induction goals with
  | nil => cases h
  | cons g goals ih =>
    rw [moveBefore_cons] at h
    split at h
    · cases h
    · exact ih h
    · next count' next' hs =>
      obtain ⟨rfl, -⟩ := Move.take.inj h
      -- What is behind the last terminal of the statement may be its end.
      have ends (i : Nat) (hi : ts.length = i) : endsStatement (ts ++ rest)[i]? = true := by
        rw [← hi, List.getElem?_append_right (Nat.le_refl _), Nat.sub_self,
          ← List.head?_eq_getElem?]
        exact hr
      rw [List.cons_append, stepBefore_cons] at hs
      rw [List.length_cons]
      rcases step_eq_take_within hs with rfl | ⟨rfl, h0⟩ | ⟨rfl, h0, h1⟩
      · omega
      · have : ts.length ≠ 0 := fun hl => by simp [ends 0 hl] at h0
        omega
      · have : ts.length ≠ 0 := fun hl => by simp [ends 0 hl] at h0
        have : ts.length ≠ 1 := fun hl => by simp [ends 1 hl] at h1
        omega

/-! ### Runs -/

theorem run_append_of_take (hr : Follows rest)
    (h : moveBefore goals (t :: ts) = .take count next) :
    run goals (t :: ts ++ rest) = run next ((t :: ts).drop count ++ rest) := by
  rw [← moveBefore_append_rest goals hr] at h
  rw [run_of_take h, List.drop_append_of_le_length (le_length_of_moveBefore hr h)]

/-- **Matching goes on with the goals that are left.** -/
theorem run_append_of_left? (h : left? goals ts = some next) (hr : Follows rest) :
    run goals (ts ++ rest) = run next rest := by
  fun_induction left? goals ts with
  | case1 goals =>
    obtain rfl := Option.some.inj h
    rfl
  | case2 goals ts hne count next' hm ih =>
    obtain ⟨t, ts, rfl⟩ := List.exists_cons_of_ne_nil hne
    rw [run_append_of_take hr hm]
    exact ih h
  | case3 => cases h

/-- **Matching breaks off at the same place and with the same result**, whatever follows. -/
theorem run_append_of_left?_eq_none (h : left? goals ts = none) :
    ∃ taken left, ts = taken ++ left ∧
      ((∃ e, ∀ rest, Follows rest → run goals (ts ++ rest) = .rejected e (left ++ rest)) ∨
        ∀ rest, Follows rest → run goals (ts ++ rest) = .accepted (left ++ rest)) := by
  fun_induction left? goals ts with
  | case1 goals => cases h
  | case2 goals ts hne count next' hm ih =>
    obtain ⟨t, ts, rfl⟩ := List.exists_cons_of_ne_nil hne
    obtain ⟨taken, left, he, hrun⟩ := ih h
    refine ⟨(t :: ts).take count ++ taken, left, ?_, ?_⟩
    · rw [List.append_assoc, ← he, List.take_append_drop]
    · refine hrun.imp (fun ⟨e, hrun⟩ => ⟨e, fun rest hr => ?_⟩) fun hrun rest hr => ?_
      · rw [run_append_of_take hr hm, hrun rest hr]
      · rw [run_append_of_take hr hm, hrun rest hr]
  | case3 goals ts hne hm =>
    obtain ⟨t, ts, rfl⟩ := List.exists_cons_of_ne_nil hne
    refine ⟨[], t :: ts, rfl, ?_⟩
    cases hmove : moveBefore goals (t :: ts) with
    | finish =>
      exact .inr fun rest hr => run_of_finish ((moveBefore_append_rest goals hr).trans hmove)
    | fail e =>
      exact .inl ⟨e, fun rest hr => run_of_fail ((moveBefore_append_rest goals hr).trans hmove)⟩
    | take count next => exact absurd hmove (hm count next)

/-! ### Goals that are left -/

/-- A move before a terminal of a statement leaves a stack, with the terminator behind it. -/
theorem isStack_of_moveBefore (hg : isStack goals = true) (ht : t ≠ .punctuation .semicolon)
    (h : moveBefore (goals ++ [terminator]) (t :: ts) = .take count next) :
    ∃ goals', next = goals' ++ [terminator] ∧ isStack goals' = true := by
  induction goals with
  | nil => simp [moveBefore_cons, step, ht] at h
  | cons g goals ih =>
    simp only [isStack, Bool.and_eq_true] at hg
    rw [List.cons_append, moveBefore_cons] at h
    split at h
    · cases h
    · exact ih (isStack_of_all hg.2) h
    · next count' next' hs =>
      obtain ⟨-, rfl⟩ := Move.take.inj h
      refine ⟨next' ++ goals, (List.append_assoc ..).symm, ?_⟩
      exact isStack_append (isStack_of_step hg.1 hs) hg.2

/-- **What is left of a stack is a stack.** -/
theorem isStack_of_left? (hg : isStack goals = true) (hts : .punctuation .semicolon ∉ ts)
    (h : left? (goals ++ [terminator]) ts = some next) :
    ∃ goals', next = goals' ++ [terminator] ∧ isStack goals' = true := by
  generalize hall : goals ++ [terminator] = all at h
  fun_induction left? all ts generalizing goals with
  | case1 all =>
    obtain rfl := Option.some.inj h
    exact ⟨goals, hall.symm, hg⟩
  | case2 all ts hne count next' hm ih =>
    subst hall
    obtain ⟨t, ts, rfl⟩ := List.exists_cons_of_ne_nil hne
    have ht : t ≠ .punctuation .semicolon := by
      rintro rfl
      exact hts List.mem_cons_self
    obtain ⟨goals', rfl, hg'⟩ := isStack_of_moveBefore hg ht hm
    exact ih hg' (fun hmem => hts (List.mem_of_mem_drop hmem)) rfl h
  | case3 => cases h

/-! ### Before a mark -/

/-- Goals that take nothing are given up or skipped before a terminal, whatever comes after it. -/
theorem run_of_refuses (gs : List Goal) (h : ∀ g ∈ goals, Refuses t g) :
    (∃ e, ∀ rest, run (goals ++ gs) (t :: rest) = .rejected e (t :: rest)) ∨
      ∀ rest, run (goals ++ gs) (t :: rest) = run gs (t :: rest) := by
  induction goals with
  | nil => exact .inr fun _ => rfl
  | cons g goals ih =>
    rcases h g List.mem_cons_self with ⟨e, he⟩ | hs
    · refine .inl ⟨e, fun rest => ?_⟩
      rw [List.cons_append, run_cons, stepBefore_cons, he]
    · refine (ih fun g' hg' => h g' (List.mem_cons_of_mem g hg')).imp ?_ ?_
      · rintro ⟨e, he⟩
        refine ⟨e, fun rest => ?_⟩
        rw [List.cons_append, run_cons, stepBefore_cons, hs]
        exact he rest
      · intro hrun rest
        rw [List.cons_append, run_cons, stepBefore_cons, hs]
        exact hrun rest

end SqlChecker.Goal
