import Mathlib.Tactic.SplitIfs
import SqlChecker.Syntax.Run

/-! # Looking ahead

A step sees up to three terminals, but not past the end of a statement: what comes after it makes no
difference (`step_congr`), and a step does not reach beyond it (`step_eq_take_within`).  A semicolon
is like the end to a goal (`step_semicolon_eq_step_none`), which takes nothing before it, with two
exceptions: the terminator that the semicolon is meant for, and a group in parentheses.

`isStack` says which goals are found together.  A group and the goal for all up to the terminator
are only ever in front of the others.
-/
namespace SqlChecker.Goal
open Step

variable {g : Goal} {first second second' third third' : Option Terminal} {e : SyntaxError}
variable {count : Nat} {next : List Goal}

theorem endsStatement_iff {t : Option Terminal} :
    endsStatement t = true ↔ t = none ∨ t = some (.punctuation .semicolon) := by
  unfold endsStatement
  split <;> simp_all

/-- The end of a statement is no terminal that a step asks for. -/
theorem eq_some_iff_of_ends {t t' : Option Terminal} {u : Terminal}
    (h : t = t' ∨ endsStatement t = true ∧ endsStatement t' = true)
    (hu : u ≠ .punctuation .semicolon) : t = some u ↔ t' = some u := by
  rcases h with rfl | ⟨h, h'⟩
  · exact Iff.rfl
  · rcases endsStatement_iff.mp h with rfl | rfl <;>
      rcases endsStatement_iff.mp h' with rfl | rfl <;> simp [Ne.symm hu]

/-- **What comes after the end of a statement makes no difference to a step.** -/
theorem step_congr (g : Goal)
    (hs : second = second' ∨ endsStatement second = true ∧ endsStatement second' = true)
    (ht : endsStatement second = false →
      third = third' ∨ endsStatement third = true ∧ endsStatement third' = true) :
    g.step first second third = g.step first second' third' := by
  cases g with
  | suffix =>
    have same : second.bind predicateAfter? = second'.bind predicateAfter? := by
      rcases hs with rfl | ⟨h, h'⟩
      · rfl
      · rcases endsStatement_iff.mp h with rfl | rfl <;>
          rcases endsStatement_iff.mp h' with rfl | rfl <;> rfl
    simp only [step, stepSuffix, same]
  | listAfterIn =>
    have same : second = some (.punctuation .leftParen) ↔
        second' = some (.punctuation .leftParen) :=
      eq_some_iff_of_ends hs (by decide)
    simp only [step, isMark, same]
  | joins =>
    have hjoin : second = some (.keyword .JOIN) ↔ second' = some (.keyword .JOIN) :=
      eq_some_iff_of_ends hs (by decide)
    -- The third terminal is asked for only behind `OUTER`, which does not end a statement.
    have houter : second = some (.keyword .OUTER) ∧ third = some (.keyword .JOIN) ↔
        second' = some (.keyword .OUTER) ∧ third' = some (.keyword .JOIN) := by
      rw [← eq_some_iff_of_ends hs (by decide)]
      refine and_congr_right fun ho => eq_some_iff_of_ends (ht ?_) (by decide)
      rw [ho]
      rfl
    simp only [step, stepJoins, isKeyword, hjoin, houter]
  | _ => rfl

/-- A step takes no terminal beyond the first one that may be the end of the statement. -/
theorem step_eq_take_within (h : g.step first second third = .take count next) :
    count = 1 ∨ count = 2 ∧ endsStatement second = false ∨
      count = 3 ∧ endsStatement second = false ∧ endsStatement third = false := by
  -- More than one terminal is taken only if those after the first have been seen to be words.
  have ends_of_some {t : Option Terminal} {k : Keyword} (ht : t = some (.keyword k)) :
      endsStatement t = false := by
    rw [ht]
    rfl
  have ends_of_predicate {t : Option Terminal} {goals : List Goal}
      (ht : t.bind predicateAfter? = some goals) : endsStatement t = false := by
    cases hends : endsStatement t with
    | false => rfl
    | true => rcases endsStatement_iff.mp hends with rfl | rfl <;> simp [predicateAfter?] at ht
  cases g
  case constraint =>
    obtain ⟨t, -, hcount, -⟩ := stepConstraint_eq_take h
    exact .inl hcount
  case constraints =>
    obtain ⟨t, -, -, hcount, -⟩ := step_constraints_eq_take h
    exact .inl hcount
  all_goals
    simp only [step, stepSuffix, stepJoins, stepGroup] at h
    grind [→ begin?_eq_take]

/-! ### Goals that are found together -/

/-- A goal that may wait behind others, and does not wait for a semicolon. -/
def mayWait : Goal → Bool
  | expect wanted _ => .punctuation .semicolon ∉ wanted
  | optional wanted =>
    .punctuation .semicolon ∉ wanted ∧ .punctuation .rightParen ∉ wanted
  | statement | terminator | group _ | constraint | untilTerminator => false
  | _ => true

/-- A goal that takes whatever comes, up to an end of its own. -/
def isGreedy : Goal → Bool
  | group _ | untilTerminator => true
  | _ => false

/-- Goals that all may wait, but for the first. -/
def isStack : List Goal → Bool
  | [] => true
  | g :: goals => (g.mayWait || g.isGreedy) && goals.all mayWait

theorem isStack_of_all {goals : List Goal} (h : goals.all mayWait = true) :
    isStack goals = true := by
  cases goals <;> simp_all [isStack]

theorem isStack_append {goals : List Goal} (h : isStack next = true)
    (hg : goals.all mayWait = true) : isStack (next ++ goals) = true := by
  cases next with
  | nil => exact isStack_of_all hg
  | cons g next =>
    simp only [isStack, List.cons_append, List.all_append, Bool.and_eq_true] at h ⊢
    exact ⟨h.1, h.2, hg⟩

/-- All goals that are left, if any are, may wait. -/
def leavesWaiting (next? : Option (List Goal)) : Bool := next?.all (·.all mayWait)

theorem leavesWaiting_bind {f : Terminal → Option (List Goal)}
    (h : ∀ t, leavesWaiting (f t) = true) : leavesWaiting (first.bind f) = true := by
  cases first with
  | none => rfl
  | some t => exact h t

theorem leavesWaiting_map {next? : Option (List Goal)} {goals : List Goal}
    (h : leavesWaiting next? = true) (hg : goals.all mayWait = true) :
    leavesWaiting (next?.map (· ++ goals)) = true := by
  cases next? with
  | none => rfl
  | some next => simpa [leavesWaiting, hg] using h

theorem isStack_of_take {count' : Nat} {next' : List Goal}
    (h : take count' next' = .take count next) (hn : isStack next' = true) :
    isStack next = true := by
  obtain ⟨-, rfl⟩ := Step.take.inj h
  exact hn

theorem isStack_of_begin? {missing : SyntaxError} {next? : Option (List Goal)}
    (h : begin? missing next? = .take count next) (hn : leavesWaiting next? = true) :
    isStack next = true := by
  obtain ⟨-, rfl⟩ := begin?_eq_take h
  exact isStack_of_all hn

theorem leavesWaiting_nameAfter? (t : Terminal) : leavesWaiting (nameAfter? t) = true := by
  unfold nameAfter?
  split <;> rfl

theorem leavesWaiting_primaryAfter? (t : Terminal) : leavesWaiting (primaryAfter? t) = true := by
  unfold primaryAfter?
  split <;> rfl

theorem leavesWaiting_expressionAfter? (missing : SyntaxError) (t : Terminal) :
    leavesWaiting (expressionAfter? missing t) = true := by
  unfold expressionAfter?
  split
  · rfl
  · rfl
  · exact leavesWaiting_map (leavesWaiting_primaryAfter? _) rfl

theorem leavesWaiting_valueAfter? (missing : SyntaxError) (t : Terminal) :
    leavesWaiting (valueAfter? missing t) = true := by
  unfold valueAfter?
  split <;> rfl

theorem leavesWaiting_predicateAfter? (t : Terminal) :
    leavesWaiting (predicateAfter? t) = true := by
  unfold predicateAfter?
  split <;> rfl

theorem leavesWaiting_referenceActionAfter? (t : Terminal) :
    leavesWaiting (referenceActionAfter? t) = true := by
  unfold referenceActionAfter?
  split <;> rfl

theorem isStack_constraintAfter (t : Terminal) :
    isStack (constraintAfter t ++ [constraints]) = true := by
  unfold constraintAfter
  split <;> rfl

/-- **What a goal leaves is a stack again.** -/
theorem isStack_of_step (hg : (g.mayWait || g.isGreedy) = true)
    (h : g.step first second third = .take count next) : isStack next = true := by
  cases g
  case statement => cases hg
  case terminator => cases hg
  case name => exact isStack_of_begin? h (leavesWaiting_bind leavesWaiting_nameAfter?)
  case primary => exact isStack_of_begin? h (leavesWaiting_bind leavesWaiting_primaryAfter?)
  case expression =>
    exact isStack_of_begin? h (leavesWaiting_bind (leavesWaiting_expressionAfter? _))
  case value => exact isStack_of_begin? h (leavesWaiting_bind (leavesWaiting_valueAfter? _))
  case referenceAction =>
    exact isStack_of_begin? h (leavesWaiting_bind leavesWaiting_referenceActionAfter?)
  case suffix =>
    have predicate {t : Option Terminal} {goals : List Goal}
        (ht : t.bind predicateAfter? = some goals) : isStack goals = true := by
      have waiting : leavesWaiting (t.bind predicateAfter?) = true :=
        leavesWaiting_bind leavesWaiting_predicateAfter?
      rw [ht] at waiting
      exact isStack_of_all waiting
    simp only [step, stepSuffix] at h
    split_ifs at h
    · split at h
      · next ht =>
        exact isStack_of_take h (predicate ht)
      · cases h
    · exact isStack_of_take h rfl
    · exact isStack_of_take h rfl
    · split at h
      · next ht =>
        exact isStack_of_take h (predicate ht)
      · cases h
  case group outer =>
    simp only [step, stepGroup] at h
    split at h
    · cases h
    · exact isStack_of_take h rfl
    · split at h
      · exact isStack_of_take h rfl
      · exact isStack_of_take h rfl
    · exact isStack_of_take h rfl
  case constraint => cases hg
  case constraints =>
    obtain ⟨t, -, -, -, rfl⟩ := step_constraints_eq_take h
    exact isStack_constraintAfter t
  case arguments =>
    simp only [step] at h
    split_ifs at h
    · exact isStack_of_take h rfl
    · exact isStack_of_take h rfl
    · exact isStack_of_begin? h
        (leavesWaiting_map (leavesWaiting_bind (leavesWaiting_expressionAfter? _)) rfl)
  case columns =>
    simp only [step] at h
    split_ifs at h
    · exact isStack_of_take h rfl
    · exact isStack_of_begin? h
        (leavesWaiting_map (leavesWaiting_bind (leavesWaiting_expressionAfter? _)) rfl)
  case definition =>
    simp only [step] at h
    split_ifs at h
    · exact isStack_of_take h rfl
    · exact isStack_of_begin? h
        (leavesWaiting_map (leavesWaiting_bind leavesWaiting_nameAfter?) rfl)
  case addition =>
    simp only [step] at h
    split_ifs at h
    · exact isStack_of_take h rfl
    · exact isStack_of_take h rfl
    · exact isStack_of_begin? h
        (leavesWaiting_map (leavesWaiting_bind leavesWaiting_nameAfter?) rfl)
  case removal =>
    simp only [step] at h
    split_ifs at h
    · exact isStack_of_take h rfl
    · exact isStack_of_take h rfl
    · exact isStack_of_begin? h (leavesWaiting_bind leavesWaiting_nameAfter?)
  -- The other goals leave the same goals before every terminal that begins them.
  all_goals
    simp only [step, stepJoins] at h
    split_ifs at h <;> exact isStack_of_take h rfl

theorem isStack_body {t : Terminal} {goals : List Goal} (h : body? t = some goals) :
    isStack goals = true := by
  unfold body? at h
  split at h <;> first | (obtain rfl := Option.some.inj h; decide) | cases h

/-! ### Steps before a mark -/

/-- A goal takes nothing that begins with this terminal, and does not look further to see that. -/
def Refuses (t : Terminal) (g : Goal) : Prop :=
  (∃ e, ∀ second third, g.step (some t) second third = .fail e) ∨
    ∀ second third, g.step (some t) second third = .skip

/-- **A semicolon is like the end** to a goal that may wait, and to one for all up to the
terminator. -/
theorem step_semicolon_eq_step_none (hg : g.mayWait = true ∨ g = untilTerminator)
    (second third : Option Terminal) :
    g.step (some (.punctuation .semicolon)) second third = g.step none none none := by
  cases g
  case expect wanted missing =>
    have hw : .punctuation .semicolon ∉ wanted := by simpa [mayWait] using hg
    simp [step, hw]
  case optional wanted =>
    have hw : .punctuation .semicolon ∉ wanted ∧ .punctuation .rightParen ∉ wanted := by
      simpa [mayWait] using hg
    simp [step, hw.1]
  case statement => simp [mayWait] at hg
  case terminator => simp [mayWait] at hg
  case group outer => simp [mayWait] at hg
  case constraint => simp [mayWait] at hg
  all_goals rfl

/-- **Before a semicolon** nothing is taken by a goal that may wait, nor by one for all up to the
terminator. -/
theorem refuses_semicolon (hg : g.mayWait = true ∨ g = untilTerminator) :
    Refuses (.punctuation .semicolon) g := by
  have same := step_semicolon_eq_step_none hg
  cases hs : g.step none none none with
  | fail e => exact .inl ⟨e, fun second third => (same second third).trans hs⟩
  | skip => exact .inr fun second third => (same second third).trans hs
  | take count next => exact absurd rfl (step_eq_take hs).1

/-- Before a closing parenthesis nothing is taken by a goal that may wait and is skipped at the
end. -/
theorem refuses_rightParen (hg : g.mayWait = true) (h : g.step none none none = .skip) :
    Refuses (.punctuation .rightParen) g := by
  cases g
  case expect wanted missing => cases h
  case optional wanted =>
    have hw : .punctuation .semicolon ∉ wanted ∧ .punctuation .rightParen ∉ wanted := by
      simpa [mayWait] using hg
    exact .inr fun _ _ => by simp [step, hw.2]
  case statement => cases hg
  case terminator => cases hg
  case group outer => cases hg
  case constraint => cases hg
  case untilTerminator => cases hg
  all_goals first | cases h; done | exact .inr fun _ _ => rfl | exact .inl ⟨_, fun _ _ => rfl⟩

end SqlChecker.Goal
