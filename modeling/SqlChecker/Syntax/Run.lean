import SqlChecker.Syntax.Step

/-! # Matching a statement

Goals are matched against terminals in order. Goals that are skipped cost nothing, so a move goes on
to the first goal that is given up or begun; each move that begins one shortens the terminals.
Matching stops when no goal is left or one is given up, and says which terminals are then left. -/
namespace SqlChecker

/-- How the matching of goals ends. -/
inductive Outcome where
  /-- All goals are matched. -/
  | accepted (rest : List Terminal)
  /-- A goal is given up before these terminals. -/
  | rejected (e : SyntaxError) (rest : List Terminal)
  deriving DecidableEq, Repr

namespace Goal

/-- What is done about a list of goals. -/
inductive Move where
  /-- Every goal is skipped. -/
  | finish
  /-- The first goal that is not skipped is given up. -/
  | fail (e : SyntaxError)
  /-- It is begun with so many terminals, and these goals are left. -/
  | take (count : Nat) (goals : List Goal)
  deriving DecidableEq, Repr

/-- What is done about a list of goals before these terminals. -/
def move (first second third : Option Terminal) : List Goal → Move
  | [] => .finish
  | g :: goals => match g.step first second third with
    | .fail e => .fail e
    | .skip => move first second third goals
    | .take count next => .take count (next ++ goals)

theorem move_eq_take {first second third : Option Terminal} {goals : List Goal} {count : Nat}
    {next : List Goal} (h : move first second third goals = .take count next) :
    first ≠ none ∧ 0 < count := by
  induction goals with
  | nil => simp [move] at h
  | cons g goals ih =>
    unfold move at h
    split at h
    · simp at h
    · exact ih h
    · rename_i hs
      obtain ⟨rfl, -⟩ := Move.take.inj h
      exact step_eq_take hs

/-- The next move before a list of terminals. -/
def moveBefore (goals : List Goal) (ts : List Terminal) : Move :=
  move ts[0]? ts[1]? ts[2]? goals

theorem length_drop_of_moveBefore {goals next : List Goal} {ts : List Terminal} {count : Nat}
    (h : moveBefore goals ts = .take count next) : (ts.drop count).length < ts.length := by
  obtain ⟨hne, hpos⟩ := move_eq_take h
  cases ts with
  | nil => simp at hne
  | cons t ts => simp only [List.length_drop, List.length_cons]; omega

/-- Matches goals against terminals. -/
def run (goals : List Goal) (ts : List Terminal) : Outcome :=
  match _h : moveBefore goals ts with
  | .finish => .accepted ts
  | .fail e => .rejected e ts
  | .take count next => run next (ts.drop count)
termination_by ts.length
decreasing_by exact length_drop_of_moveBefore _h

theorem run_of_finish {goals : List Goal} {ts : List Terminal}
    (h : moveBefore goals ts = .finish) : run goals ts = .accepted ts := by
  rw [run]; split <;> simp_all

theorem run_of_fail {goals : List Goal} {ts : List Terminal} {e : SyntaxError}
    (h : moveBefore goals ts = .fail e) : run goals ts = .rejected e ts := by
  rw [run]; split <;> simp_all

theorem run_of_take {goals next : List Goal} {ts : List Terminal} {count : Nat}
    (h : moveBefore goals ts = .take count next) : run goals ts = run next (ts.drop count) := by
  rw [run]; split <;> simp_all

end Goal
end SqlChecker
