import SqlChecker.Proofs.Matching.Definitions
import SqlChecker.Proofs.Recognition.Phrase

/-! # Constraints are recognized

A group in parentheses runs up to the parenthesis that matches its first one, and to the end of all
terminals if there is none.  So what is recognized depends on what may be left over: before anything
that is not empty, every group is closed (`recognizes_constraints`, with `U` empty), and at the end
the last one may be unclosed.
-/
namespace SqlChecker.Goal
open Matcher Terminal RecognizesBefore Computability

/-! ### Groups -/

/-- Matched parentheses leave the count as it was. -/
theorem run_group_nested {w : List Terminal} (hw : Grammar.Nested w) (outer : Nat)
    (rest : List Terminal) : run [group outer] (w ++ rest) = run [group outer] rest := by
  induction hw generalizing outer rest with
  | nil => rfl
  | cons ht _ ih => rw [List.cons_append, run_group_other outer _ ht, ih]
  | group _ _ ihinner ih =>
    rw [List.append_assoc, List.cons_append, List.cons_append, run_group_open, ihinner,
      run_group_close_succ, ih]

/-- A group ends with the parenthesis that matches its first one. -/
theorem run_group_of_closed {w : List Terminal}
    (hw : w ∈ Grammar.nested * Grammar.mark .rightParen) (rest : List Terminal) :
    run [group 0] (w ++ rest) = .accepted rest := by
  obtain ⟨inner, hinner, c, hc, rfl⟩ := Language.mem_mul.mp hw
  obtain rfl := Grammar.mem_among_singleton_iff.mp hc
  rw [List.append_assoc, run_group_nested hinner, List.singleton_append, run_group_close]

/-- A group with `outer` groups around it ends with the parenthesis that closes them all, or with
the last terminal.  The induction is on the terminals, each of which changes the count or is passed
over. -/
theorem run_group (outer : Nat) (ts : List Terminal) :
    (∃ w ∈ (Grammar.nested * Grammar.mark .rightParen) ^ (outer + 1), ∃ rest,
      ts = w ++ rest ∧ run [group outer] ts = .accepted rest) ∨
    run [group outer] ts = .accepted [] := by
  induction ts generalizing outer with
  | nil => exact .inr (run_group_nil outer)
  | cons t ts ih =>
    by_cases ho : t = .punctuation .leftParen
    · subst ho
      rw [run_group_open]
      refine (ih (outer + 1)).imp_left ?_
      rintro ⟨w, hw, rest, rfl, hr⟩
      -- The first parenthesis closes the group that opens here, the second the one around it.
      rw [pow_succ', pow_succ', mul_assoc, mul_assoc] at hw
      obtain ⟨n₁, hn₁, _, hclose, rfl⟩ := Language.mem_mul.mp hw
      obtain ⟨_, hmid, rfl⟩ := Grammar.mem_among_singleton_mul_iff.mp hclose
      obtain ⟨n₂, hn₂, v, hv, rfl⟩ := Language.mem_mul.mp hmid
      refine ⟨(.punctuation .leftParen :: n₁ ++ .punctuation .rightParen :: n₂) ++ v, ?_, rest, ?_,
        hr⟩
      · rw [pow_succ', mul_assoc]
        exact Language.append_mem_mul (.group hn₁ hn₂) hv
      · simp
    · by_cases hc : t = .punctuation .rightParen
      · subst hc
        cases outer with
        | zero =>
          refine .inl ⟨[] ++ [.punctuation .rightParen], ?_, ts, rfl, run_group_close ts⟩
          rw [pow_one]
          exact Language.append_mem_mul .nil (Grammar.mem_among_singleton_iff.mpr rfl)
        | succ outer =>
          rw [run_group_close_succ]
          refine (ih outer).imp_left ?_
          rintro ⟨w, hw, rest, rfl, hr⟩
          refine ⟨([] ++ [.punctuation .rightParen]) ++ w, ?_, rest, rfl, hr⟩
          rw [pow_succ']
          exact Language.append_mem_mul
            (Language.append_mem_mul .nil (Grammar.mem_among_singleton_iff.mpr rfl)) hw
      · have ht : t ∉ [Terminal.punctuation .leftParen, .punctuation .rightParen] := by
          simp [ho, hc]
        rw [run_group_other outer ts ht]
        refine (ih outer).imp_left ?_
        rintro ⟨w, hw, rest, rfl, hr⟩
        rw [pow_succ', mul_assoc] at hw
        obtain ⟨inner, hinner, v, hv, rfl⟩ := Language.mem_mul.mp hw
        refine ⟨(t :: inner) ++ v, ?_, rest, rfl, hr⟩
        rw [pow_succ', mul_assoc]
        exact Language.append_mem_mul (.cons ht hinner) hv

/-- **A group is closed or runs to the end.** -/
theorem run_group_closed_or_unclosed (ts : List Terminal) :
    (∃ w ∈ Grammar.nested * Grammar.mark .rightParen, ∃ rest,
      ts = w ++ rest ∧ run [group 0] ts = .accepted rest) ∨
    ts ∈ Grammar.unclosed ∧ run [group 0] ts = .accepted [] := by
  by_cases hts : ts ∈ Grammar.unclosed
  · refine .inr ⟨hts, (run_group 0 ts).resolve_left ?_⟩
    rintro ⟨w, hw, rest, he, -⟩
    rw [pow_one] at hw
    exact hts w rest he hw
  · have closed : ∃ w rest, ts = w ++ rest ∧ w ∈ Grammar.nested * Grammar.mark .rightParen := by
      by_contra hn
      refine hts fun w rest he hw => hn ⟨w, rest, he, hw⟩
    obtain ⟨w, rest, rfl, hw⟩ := closed
    exact .inl ⟨w, hw, rest, rfl, run_group_of_closed hw rest⟩

section
variable {E : List Terminal → Prop} {U : Language Terminal} {n : Nat}

/-- What may be unclosed before something is only what has nothing left over. -/
structure UnclosedBefore (E : List Terminal → Prop) (U : Language Terminal) : Prop where
  mem_iff (w : List Terminal) : w ∈ U ↔ w ∈ Grammar.unclosed ∧ E []
  eq_nil {rest : List Terminal} : E [] → E rest → rest = []

theorem unclosedBefore_end : UnclosedBefore (· = []) Grammar.unclosed where
  mem_iff w := by simp
  eq_nil _ := id

theorem unclosedBefore_rest : UnclosedBefore (· ≠ []) 0 where
  mem_iff w := by simp
  eq_nil h := absurd rfl h

/-- **A group, and what follows it.** -/
theorem recognizes_group_cons {goals : List Goal} {M : Language Terminal} {q : Profile}
    (hU : UnclosedBefore E U) (hM : [] ∈ M) (h : RecognizesBefore E n (run goals) M q) :
    RecognizesBefore E n (run (group 0 :: goals))
      (Grammar.nested * Grammar.mark .rightParen * M + U) ⟨fun _ => true, q.extend, true⟩ where
  sound {ts rest} hl hE hr := by
    obtain ⟨mid, hmid, hr⟩ := run_cons_eq_accepted_iff.mp hr
    rcases run_group_closed_or_unclosed ts with ⟨w, hw, mid', rfl, hg⟩ | ⟨hts, hg⟩
    · obtain rfl : mid' = mid := by simpa [hg] using hmid
      rw [List.length_append] at hl
      obtain ⟨v, hv, rfl⟩ := h.sound (by omega) hE hr
      exact ⟨w ++ v, .inl (Language.append_mem_mul hw hv), (List.append_assoc w v rest).symm⟩
    · obtain rfl : [] = mid := by simpa [hg] using hmid
      obtain rfl : rest = [] := List.eq_nil_of_length_eq_zero (Nat.le_zero.mp (length_le_of_run hr))
      exact ⟨ts, .inr ((hU.mem_iff ts).mpr ⟨hts, hE⟩), (List.append_nil ts).symm⟩
  complete {w rest} hw hl hE hrest := by
    rw [run_cons_eq_accepted_iff]
    rcases hw with hw | hw
    · obtain ⟨v, hv, u, hu, rfl⟩ := Language.mem_mul.mp hw
      rw [List.length_append] at hl
      refine ⟨u ++ rest, ?_, h.complete hu (by omega) hE hrest⟩
      rw [List.append_assoc, run_group_of_closed hv]
    · obtain ⟨hun, hnil⟩ := (hU.mem_iff w).mp hw
      obtain rfl := hU.eq_nil hnil hE
      refine ⟨[], ?_, h.complete hM (Nat.zero_lt_of_lt hl) hnil hrest⟩
      rw [List.append_nil]
      refine ((run_group_closed_or_unclosed w).resolve_left ?_).2
      rintro ⟨v, hv, mid, he, -⟩
      exact hun v mid he hv
  first _ _ := rfl
  empty _ _ := rfl

/-! ### Constraints of a table -/

theorem recognizes_tableConstraint (n : Nat) :
    RecognizesBefore (· ≠ []) n (run [tableConstraint]) Grammar.skipped
      ⟨fun t => among [.punctuation .leftParen] t || Grammar.isPlain t,
        fun t => among [.punctuation .leftParen] t || Grammar.isPlain t, true⟩ := by
  induction n with
  | zero => exact zero ..
  | succ n ih =>
    have hnil : [] ∈ Grammar.skipped := Language.nil_mem_kstar _
    have grouped := lead (among [.punctuation .leftParen]) .definedColumn
      (recognizes_group_cons unclosedBefore_rest hnil ih)
    have whole := choose grouped (maybe Grammar.isPlain ih) nofun (by decide)
    have language : Grammar.anyOf (among [.punctuation .leftParen]) *
          (Grammar.nested * Grammar.mark .rightParen * Grammar.skipped + 0) +
        Grammar.optional (Grammar.anyOf Grammar.isPlain * Grammar.skipped) = Grammar.skipped := by
      have unfolded := Grammar.optional_mul_kstar (Grammar.group + Grammar.anyOf Grammar.isPlain)
      rw [← Grammar.skipped] at unfolded
      rw [add_zero, Grammar.add_optional, ← mul_assoc, ← mul_assoc, ← add_mul]
      exact unfolded
    rw [run_tableConstraint .definedColumn, ← language]
    exact whole.fits (by decide)

/-! ### Constraints of a column -/

/-- How the constraints of a column begin and go on. -/
def constraintsProfile : Profile where
  first t := among [.punctuation .leftParen] t || Grammar.isPlain t
  extend t := among [.punctuation .leftParen] t || Grammar.isPlain t
  empty := true

theorem recognizes_referenceAction (n : Nat) :
    Recognizes n (run [referenceAction])
      (Grammar.keyword .CASCADE + Grammar.keyword .RESTRICT +
        Grammar.keyword .SET * (Grammar.keyword .NULL + Grammar.keyword .DEFAULT) +
        Grammar.anyOf (among [.identifier .no]) * Grammar.anyOf (among [.identifier .action]))
      ⟨among [.keyword .CASCADE, .keyword .RESTRICT, .keyword .SET, .identifier .no], among [],
        false⟩ := by
  have plain := lead (among [.keyword .CASCADE, .keyword .RESTRICT]) .referenceAction
    (done (n := n))
  have set := lead (among [.keyword .SET]) .referenceAction
    (recognizes_expect n .setAction [.keyword .NULL, .keyword .DEFAULT])
  have no := lead (among [.identifier .no]) .referenceAction
    (recognizes_expect n .noAction [.identifier .action])
  have whole := choose plain (choose set no nofun (by decide)) nofun (by decide)
  rw [mul_one, Grammar.anyOf_among_cons, Grammar.anyOf_among_cons, ← add_assoc] at whole
  rw [run_referenceAction]
  exact whole.pred.fits (by decide)

/-! The constraints after a reference are its continuation: the parts of a reference are recognized
before any language `C` of further constraints. -/

section
variable {C : Language Terminal}
variable (h : RecognizesBefore E n (run [constraints]) C constraintsProfile)
include h

theorem recognizes_referenceActions :
    RecognizesBefore E n (run [referenceActions, constraints])
      (Grammar.referenceAction∗ * Grammar.avoiding (among [.keyword .ON]) C)
      constraintsProfile := by
  suffices hk : ∀ k ≤ n, RecognizesBefore E k (run [referenceActions, constraints])
      (Grammar.referenceAction∗ * Grammar.avoiding (among [.keyword .ON]) C)
      constraintsProfile from hk n le_rfl
  intro k
  induction k with
  | zero => exact fun _ => zero ..
  | succ k ih =>
    intro hk
    have action := (recognizes_referenceAction k).cons (ih (by omega)) (by decide)
    have event := (recognizes_expect k .referenceEvent [.keyword .DELETE, .keyword .UPDATE]).cons
      action (by decide)
    have whole := maybe_cons run_referenceActions .referenceEvent le_rfl event (h.mono hk)
    have language (A B : Language Terminal) : A∗ * B = A * (A∗ * B) + B := by
      conv_lhs => rw [← Grammar.optional_mul_kstar, Grammar.optional_mul, add_comm, mul_assoc]
    rw [language]
    simp only [Grammar.referenceAction, Grammar.anyOf_among_cons, mul_assoc] at whole ⊢
    exact whole.fits (by decide)

theorem recognizes_referencedColumn :
    RecognizesBefore E n (run [referencedColumn, referenceActions, constraints])
      (Grammar.referencedOf C) constraintsProfile := by
  have actions := recognizes_referenceActions h
  have column := (recognizes_name n .referencedColumn).cons
    ((recognizes_mark n .referencedClose .rightParen).cons actions (by decide)) (by decide)
  have whole := maybe_cons run_referencedColumn .referencedColumn (Nat.le_succ n) column actions
  rw [← mul_assoc, ← mul_assoc] at whole
  exact whole.fits (by decide)

theorem recognizes_reference :
    RecognizesBefore E n
      (run [name .referencedTable, referencedColumn, referenceActions, constraints])
      (Grammar.referenceOf C) ⟨isName, constraintsProfile.extend, false⟩ := by
  have referenced := recognizes_referencedColumn h
  have qualified := append (recognizes_qualified n) referenced (by decide)
  have whole := lead_cons (run_name .referencedTable)
    (maybe_cons run_qualifier .referencedTable (Nat.le_succ n) qualified referenced)
  rw [← mul_assoc] at whole
  exact whole.pred.fits (by decide)

/-- The word `KEY` goes on with `PRIMARY`, but is a constraint by itself as well. -/
theorem recognizes_primaryKey (hC : ∀ w, .keyword .KEY :: w ∈ C → w ∈ C) :
    RecognizesBefore E n (run [optional [.keyword .KEY], constraints])
      (Grammar.optional (Grammar.keyword .KEY) * C) constraintsProfile := by
  have key : run [optional [.keyword .KEY]] = maybe (among [.keyword .KEY]) (run []) := by
    rw [run_nil]
    exact run_optional _
  have whole := maybe_cons key .nullAfterNot (Nat.le_succ n) h h
  have language : Grammar.optional (Grammar.keyword .KEY) * C =
      Grammar.keyword .KEY * C + Grammar.avoiding (among [.keyword .KEY]) C := by
    rw [Grammar.optional_mul, add_comm]
    ext w
    refine or_congr_right' fun hw => ⟨fun hC' => ⟨hC', fun t ht => ?_⟩, And.left⟩
    by_contra hk
    obtain ⟨v, rfl⟩ := List.head?_eq_some_iff.mp ht
    obtain rfl : t = .keyword .KEY := by simpa using hk
    exact hw (Grammar.cons_mem_anyOf_mul rfl (hC v hC'))
  rw [language]
  exact whole.fits (by decide)

end

/-- The word `KEY` may be left out of the constraints. -/
theorem mem_constraints_of_key_cons {w : List Terminal}
    (hw : .keyword .KEY :: w ∈ Grammar.constraints (Grammar.mark .leftParen * U)) :
    w ∈ Grammar.constraints (Grammar.mark .leftParen * U) := by
  rw [← Grammar.constraints_eq] at hw
  generalize Grammar.constraints (Grammar.mark .leftParen * U) = C at hw ⊢
  simp only [Grammar.constraintsOf, Grammar.optional_eq, Grammar.group, Grammar.parenthesized,
    Grammar.keyword, Grammar.mark, mul_assoc, Language.mem_add, Language.mem_one,
    Grammar.cons_mem_anyOf_mul_iff] at hw
  have other : Grammar.isOther (.keyword .KEY) = true ∧ w ∈ C := by simpa using hw
  exact other.2

/-- **The constraints of a column are recognized.**  Each begins with a terminal of its own, and
before the others they end. -/
theorem recognizes_constraints (hU : UnclosedBefore E U) (n : Nat) :
    RecognizesBefore E n (run [constraints])
      (Grammar.constraints (Grammar.mark .leftParen * U)) constraintsProfile := by
  induction n with
  | zero => exact zero ..
  | succ n ih =>
    generalize hC : Grammar.constraints (Grammar.mark .leftParen * U) = C at ih
    -- An unclosed group has nothing after it, and nothing at all is a word of constraints.
    have hnil : [] ∈ C := by
      rw [← hC, ← Grammar.constraints_eq]
      simp only [Grammar.constraintsOf, Grammar.optional_eq, Language.mem_add, Language.nil_mem_one,
        true_or]
    have notNull := lead (among [.keyword .NOT]) .nullAfterNot
      ((recognizes_keyword n .nullAfterNot .NULL).cons ih (by decide))
    have default := lead (among [.keyword .DEFAULT]) .nullAfterNot
      ((recognizes_value n .defaultValue).cons ih (by decide))
    have primary := lead (among [.keyword .PRIMARY]) .nullAfterNot
      (recognizes_primaryKey ih fun w => hC ▸ mem_constraints_of_key_cons)
    have reference := lead (among [.keyword .REFERENCES]) .nullAfterNot (recognizes_reference ih)
    have grouped := lead (among [.punctuation .leftParen]) .nullAfterNot
      (recognizes_group_cons hU hnil ih)
    have other := maybe (fun t => among [.keyword .UNIQUE] t || Grammar.isOther t) ih
    have whole := choose notNull (choose default (choose primary (choose reference (choose grouped
      other nofun (by decide)) nofun (by decide)) nofun (by decide)) nofun (by decide)) nofun
      (by decide)
    have language :
        Grammar.keyword .NOT * (Grammar.keyword .NULL * C) +
          (Grammar.keyword .DEFAULT * (Grammar.value * C) +
            (Grammar.keyword .PRIMARY * (Grammar.optional (Grammar.keyword .KEY) * C) +
              (Grammar.keyword .REFERENCES * Grammar.referenceOf C +
                (Grammar.mark .leftParen * (Grammar.nested * Grammar.mark .rightParen * C + U) +
                  Grammar.optional (Grammar.anyOf (fun t => among [.keyword .UNIQUE] t ||
                    Grammar.isOther t) * C))))) = C := by
      conv_rhs => rw [← hC, ← Grammar.constraints_eq, hC]
      simp only [Grammar.constraintsOf, Grammar.optional_eq, Grammar.anyOf_or, Grammar.keyword,
        Grammar.group, Grammar.parenthesized, mul_add, add_mul, mul_assoc]
      abel
    rw [run_constraints .nullAfterNot, ← language]
    exact whole.fits (by decide)

/-! ### Columns -/

theorem recognizes_typeScale (n : Nat) :
    Recognizes n (run [typeScale]) (Grammar.optional (Grammar.mark .comma * Grammar.number))
      ⟨among [.punctuation .comma], among [.punctuation .comma], true⟩ := by
  rw [run_typeScale]
  exact (maybe _ (recognizes_number n .typeScale)).pred.fits (by decide)

theorem recognizes_columnDefinition (hU : UnclosedBefore E U) (n : Nat) :
    RecognizesBefore E n (run columnDefinition) (Grammar.column (Grammar.mark .leftParen * U))
      ⟨isName, constraintsProfile.extend, false⟩ := by
  have constraints := recognizes_constraints hU n
  have scaled := (recognizes_typeScale n).cons
    ((recognizes_mark n .typeClose .rightParen).cons constraints (by decide)) (by decide)
  have sized := (recognizes_number n .typeLength).cons scaled (by decide)
  have typed := lead_cons run_dataType
    (maybe_cons run_typeLength .typeLength (Nat.le_succ n) sized constraints)
  have whole := (recognizes_name n .definedColumn).cons typed.pred (by decide)
  simp only [Grammar.column, Grammar.typeLength, Grammar.parenthesized, Grammar.mark,
    mul_assoc] at whole ⊢
  exact whole.fits (by decide)

end

end SqlChecker.Goal
