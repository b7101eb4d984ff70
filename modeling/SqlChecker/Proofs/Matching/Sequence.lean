import SqlChecker.Syntax.Run

/-! # Matching goals one after the other

A list of goals is matched by matching its parts in order: `run_append`.  So a goal can be studied
by itself, as the matcher `run [g]`, and what a list of goals matches is put together from what its
goals match.  `run_cons` says what a single step does to the first goal of a list.

Every goal turns out to be one of a few sorts of matcher, which this module names: one that begins
with a terminal of some class (`Matcher.lead`), one that may be missing (`Matcher.attempt`,
`Matcher.maybe`), and one that is decided by the next terminal (`Matcher.choose`).
-/
namespace SqlChecker

/-- Matches the terminals at the front of a list, or breaks off. -/
abbrev Matcher := List Terminal → Outcome

namespace Matcher

/-- Goes on with a second matcher where the first one ends. -/
def andThen (m m' : Matcher) (ts : List Terminal) : Outcome :=
  match m ts with
  | .accepted rest => m' rest
  | .rejected e rest => .rejected e rest

/-- A terminal of a class that must come next, and what follows it. -/
def lead (F : Terminal → Bool) (missing : SyntaxError) (m : Matcher) : Matcher
  | [] => .rejected missing []
  | t :: ts => if F t then m ts else .rejected missing (t :: ts)

/-- Something that may be missing, and what follows it if it is there. -/
def attempt (front : List Terminal → Option (List Terminal)) (m : Matcher)
    (ts : List Terminal) : Outcome :=
  match front ts with
  | some rest => m rest
  | none => .accepted ts

/-- Takes a terminal of a class. -/
def takeOne (F : Terminal → Bool) : List Terminal → Option (List Terminal)
  | [] => none
  | t :: ts => if F t then some ts else none

/-- A terminal of a class and what follows it, or nothing. -/
def maybe (F : Terminal → Bool) (m : Matcher) : Matcher := attempt (takeOne F) m

/-- One matcher before a terminal of a class, and another elsewhere. -/
def choose (F : Terminal → Bool) (m m' : Matcher) (ts : List Terminal) : Outcome :=
  if ts.head?.any F then m ts else m' ts

section
variable (F : Terminal → Bool) (missing : SyntaxError) (m m' : Matcher) (t : Terminal)
variable (ts : List Terminal)

@[simp] theorem lead_nil : lead F missing m [] = .rejected missing [] := rfl

@[simp] theorem lead_cons :
    lead F missing m (t :: ts) = if F t then m ts else .rejected missing (t :: ts) := rfl

@[simp] theorem maybe_nil : maybe F m [] = .accepted [] := rfl

@[simp] theorem maybe_cons :
    maybe F m (t :: ts) = if F t then m ts else .accepted (t :: ts) := by
  by_cases h : F t = true <;> simp [maybe, attempt, takeOne, h]

@[simp] theorem choose_nil : choose F m m' [] = m' [] := rfl

@[simp] theorem choose_cons :
    choose F m m' (t :: ts) = if F t then m (t :: ts) else m' (t :: ts) := rfl

end

theorem andThen_eq_accepted_iff {m m' : Matcher} {ts rest : List Terminal} :
    m.andThen m' ts = .accepted rest ↔ ∃ mid, m ts = .accepted mid ∧ m' mid = .accepted rest := by
  unfold andThen
  cases m ts <;> simp

theorem andThen_lead (F : Terminal → Bool) (missing : SyntaxError) (m m' : Matcher) :
    (lead F missing m).andThen m' = lead F missing (m.andThen m') := by
  funext ts
  cases ts with
  | nil => rfl
  | cons t ts => by_cases ht : F t = true <;> simp [andThen, ht]

/-- What may be missing, and then something else: the next terminal decides between the two. -/
theorem andThen_maybe (F : Terminal → Bool) (missing : SyntaxError) (m m' : Matcher) :
    (maybe F m).andThen m' = choose F (lead F missing (m.andThen m')) m' := by
  funext ts
  cases ts with
  | nil => rfl
  | cons t ts => by_cases ht : F t = true <;> simp [andThen, ht]

end Matcher

namespace Goal
open Matcher

/-- What is done about a goal before a list of terminals. -/
def stepBefore (g : Goal) (ts : List Terminal) : Step := g.step ts[0]? ts[1]? ts[2]?

@[simp] theorem stepBefore_nil (g : Goal) : g.stepBefore [] = g.step none none none := rfl

@[simp] theorem stepBefore_cons (g : Goal) (t : Terminal) (ts : List Terminal) :
    g.stepBefore (t :: ts) = g.step (some t) ts[0]? ts[1]? := rfl

theorem moveBefore_cons (g : Goal) (goals : List Goal) (ts : List Terminal) :
    moveBefore (g :: goals) ts = match g.stepBefore ts with
      | .fail e => .fail e
      | .skip => moveBefore goals ts
      | .take count next => .take count (next ++ goals) := rfl

/-- No goals are matched by nothing. -/
@[simp] theorem run_nil : run [] = .accepted := funext fun _ => run_of_finish rfl

/-- The first goal of a list is given up, or left out, or begun. -/
theorem run_cons (g : Goal) (goals : List Goal) (ts : List Terminal) :
    run (g :: goals) ts = match g.stepBefore ts with
      | .fail e => .rejected e ts
      | .skip => run goals ts
      | .take count next => run (next ++ goals) (ts.drop count) := by
  have hm := moveBefore_cons g goals ts
  cases hs : g.stepBefore ts with
  | fail e =>
    rw [hs] at hm
    exact run_of_fail hm
  | skip =>
    rw [hs] at hm
    show run (g :: goals) ts = run goals ts
    rw [run, run, hm]
  | take count next =>
    rw [hs] at hm
    exact run_of_take hm

theorem moveBefore_append (as bs : List Goal) (ts : List Terminal) :
    moveBefore (as ++ bs) ts = match moveBefore as ts with
      | .finish => moveBefore bs ts
      | .fail e => .fail e
      | .take count next => .take count (next ++ bs) := by
  induction as with
  | nil => rfl
  | cons g as ih =>
    rw [List.cons_append, moveBefore_cons, moveBefore_cons]
    cases g.stepBefore ts with
    | fail e => rfl
    | skip => exact ih
    | take count next => simp only [List.append_assoc]

/-- **Goals are matched one after the other.**  The induction is on the moves of the first part; the
second part is met where the first one is finished, before the same terminals. -/
theorem run_append (as bs : List Goal) : run (as ++ bs) = Matcher.andThen (run as) (run bs) := by
  funext ts
  fun_induction run as ts with
  | case1 as ts h =>
    have hm := moveBefore_append as bs ts
    rw [h] at hm
    rw [Matcher.andThen, run_of_finish h]
    show run (as ++ bs) ts = run bs ts
    rw [run, run, hm]
  | case2 as ts e h =>
    have hm := moveBefore_append as bs ts
    rw [h] at hm
    rw [Matcher.andThen, run_of_fail h, run_of_fail hm]
  | case3 as ts count next h ih =>
    have hm := moveBefore_append as bs ts
    rw [h] at hm
    rw [run_of_take hm, ih, Matcher.andThen, Matcher.andThen, run_of_take h]

theorem run_cons_eq_andThen (g : Goal) (goals : List Goal) :
    run (g :: goals) = Matcher.andThen (run [g]) (run goals) :=
  run_append [g] goals

/-- Goals are matched up to a place if the first of them is, up to a place from which the others
are. -/
theorem run_cons_eq_accepted_iff {g : Goal} {goals : List Goal} {ts rest : List Terminal} :
    run (g :: goals) ts = .accepted rest ↔
      ∃ mid, run [g] ts = .accepted mid ∧ run goals mid = .accepted rest := by
  rw [run_cons_eq_andThen, andThen_eq_accepted_iff]

theorem run_cons_of_accepted {g : Goal} {ts rest : List Terminal} (h : run [g] ts = .accepted rest)
    (goals : List Goal) : run (g :: goals) ts = run goals rest := by
  rw [run_cons_eq_andThen, Matcher.andThen, h]

/-- What the first goal does decides how matching goes on. -/
theorem run_cons_congr {g g' : Goal} {ts ts' : List Terminal} (h : run [g] ts = run [g'] ts')
    (goals : List Goal) : run (g :: goals) ts = run (g' :: goals) ts' := by
  rw [run_cons_eq_andThen, run_cons_eq_andThen g']
  unfold andThen
  rw [h]

/-- What is left over is the end of what was to be matched. -/
theorem suffix_of_run {goals : List Goal} {ts rest : List Terminal}
    (h : run goals ts = .accepted rest) : rest <:+ ts := by
  fun_induction run goals ts with
  | case1 goals ts hm =>
    obtain rfl := Outcome.accepted.inj h
    exact List.suffix_rfl
  | case2 goals ts e hm => cases h
  | case3 goals ts count next hm ih => exact (ih h).trans (List.drop_suffix count ts)

theorem length_le_of_run {goals : List Goal} {ts rest : List Terminal}
    (h : run goals ts = .accepted rest) : rest.length ≤ ts.length :=
  (suffix_of_run h).length_le

/-! ### Sorts of goals -/

/-- A goal that is begun by the terminals of a class and given up before all others. -/
theorem run_eq_lead {g : Goal} {F : Terminal → Bool} {missing : SyntaxError} {body : List Goal}
    (h : ∀ first second third,
      g.step first second third = if first.any F then .take 1 body else .fail missing) :
    run [g] = lead F missing (run body) := by
  funext ts
  rw [run_cons, stepBefore, h]
  cases ts with
  | nil => rfl
  | cons t ts => by_cases ht : F t = true <;> simp [ht]

/-- A goal that is begun by the terminals of a class and left out before all others. -/
theorem run_eq_maybe {g : Goal} {F : Terminal → Bool} {body : List Goal}
    (h : ∀ first second third,
      g.step first second third = if first.any F then .take 1 body else .skip) :
    run [g] = maybe F (run body) := by
  funext ts
  rw [run_cons, stepBefore, h]
  cases ts with
  | nil => simp
  | cons t ts => by_cases ht : F t = true <;> simp [ht]

end Goal
end SqlChecker
